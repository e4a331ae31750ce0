import Parametric.Document
import Parametric.Proofs.Feature.Tree
import Parametric.Proofs.Parameters.Edit
/-! Documents after any edits of their studios and parameters.

Every studio has a well-formed feature tree, and the parameters are evaluated. An edit
changes one studio, the list of studios or the parameters; renaming a parameter changes
all of them.
-/

set_option autoImplicit false

namespace Parametric.Document

/-- An edit of a document. Identifiers of what is new are supplied. -/
inductive Edit where
  | studio (id : StudioId) (edit : Studio.Edit)
  | renameStudio (id : StudioId) (name : String)
  | touch (id : StudioId) (now : Timestamp)
  | addStudio (fresh : StudioId) (name : String)
  | removeStudio (id : StudioId)
  | parameters (edit : Parameters.Edit)
  | renameParameter (id : ParameterId) (name : String)
      (takes : String → Bool := Formula.anyWord)

def changeStudio (d : Document) (id : StudioId) (change : Studio → Studio) : Document :=
  match d.studio? id with
  | none => d
  | some s => d.setStudio id (change s)

namespace Edit

def apply (d : Document) : Edit → Document
  | studio id edit => d.changeStudio id edit.apply
  | renameStudio id name => d.changeStudio id fun s => { s with name }
  | touch id now => d.changeStudio id (·.touch now)
  | addStudio fresh name => d.addStudio fresh name
  | removeStudio id => ((d.removeStudio? id).map (·.2)).getD d
  | parameters edit => match edit.apply d.params with
    | .ok params => { d with params }
    | .error _ => d
  | renameParameter id name takes => (d.renameParameter id name takes).toOption.getD d

def makesOp? : Edit → Option OpId
  | studio _ edit => edit.makes?
  | _ => none

def makesParameter? : Edit → Option ParameterId
  | parameters edit => edit.makes?
  | _ => none

end Edit

/-- Each feature and each parameter that some edits make has an identifier of its own. -/
def OwnIds (edits : List Edit) : Prop :=
  (edits.filterMap Edit.makesOp?).Nodup ∧ (edits.filterMap Edit.makesParameter?).Nodup

def after (fresh : StudioId) (edits : List Edit) : Document :=
  edits.foldl Edit.apply (new fresh)

/-! ## What a run keeps -/

/-- The studios and the parameters are as edits leave them, with the identifiers of features and
parameters among the ones made so far. -/
structure Kept (ops : List OpId) (parameters : List ParameterId) (d : Document) : Prop where
  studios : ∀ s ∈ d.studios, s.Kept ops
  params : d.params.Kept parameters

variable {ops : List OpId} {parameters : List ParameterId} {d : Document}

theorem mem_replaceFirst {id : StudioId} {studio t : Studio} {studios : List Studio}
    (member : t ∈ replaceFirst id studio studios) : t = studio ∨ t ∈ studios := by
  induction studios with
  | nil => cases member
  | cons first rest ih =>
    rw [replaceFirst] at member
    split at member
    · rcases List.mem_cons.mp member with rfl | later
      · exact .inl rfl
      · exact .inr (List.mem_cons_of_mem _ later)
    · rcases List.mem_cons.mp member with rfl | later
      · exact .inr (by simp)
      · exact (ih later).imp_right (List.mem_cons_of_mem _)

theorem changeStudio_of_studio? {id : StudioId} {s changed : Studio} {change : Studio → Studio}
    (found : d.studio? id = some s) (changes : change s = changed) :
    d.changeStudio id change = d.setStudio id changed := by
  rw [changeStudio, found, ← changes]

theorem split_at_first {id : StudioId} {s : Studio} {studios : List Studio}
    (first : studios.find? (·.id = id) = some s) :
    ∃ before after, studios = before ++ s :: after ∧
      studios.eraseP (·.id = id) = before ++ after ∧
      ∀ t, replaceFirst id t studios = before ++ t :: after := by
  induction studios with
  | nil => cases first
  | cons head rest ih =>
    by_cases here : head.id = id
    · simp only [List.find?_cons, here, decide_true, Option.some.injEq] at first
      subst first
      refine ⟨[], rest, rfl, ?_, fun t => ?_⟩
      · rw [List.eraseP_cons_of_pos (by simpa using here), List.nil_append]
      · rw [replaceFirst, if_pos here, List.nil_append]
    · simp only [List.find?_cons, here, decide_false] at first
      obtain ⟨before, after, split, erased, replaced⟩ := ih first
      refine ⟨head :: before, after, congrArg (head :: ·) split, ?_, fun t => ?_⟩
      · rw [List.eraseP_cons_of_neg (by simpa using here), erased, List.cons_append]
      · rw [replaceFirst, if_neg here, replaced, List.cons_append]

theorem setStudio_self {id : StudioId} {s : Studio} (found : d.studio? id = some s) :
    d.setStudio id s = d := by
  obtain ⟨before, after, split, _, replaced⟩ := split_at_first found
  cases d
  simp only [setStudio, mk.injEq, and_true]
  exact (replaced s).trans split.symm

namespace Kept

theorem mono (kept : d.Kept ops parameters) {moreOps : List OpId}
    {moreParameters : List ParameterId} (opsIncluded : ops ⊆ moreOps)
    (parametersIncluded : parameters ⊆ moreParameters) : d.Kept moreOps moreParameters where
  studios s member := (kept.studios s member).mono opsIncluded
  params := kept.params.mono parametersIncluded

theorem changeStudio (kept : d.Kept ops parameters) {more : List OpId} (included : ops ⊆ more)
    {change : Studio → Studio} (changes : ∀ s, s.Kept ops → (change s).Kept more) (id : StudioId) :
    (d.changeStudio id change).Kept more parameters := by
  unfold Document.changeStudio
  split
  · exact kept.mono included fun _ listed => listed
  · next s found =>
    constructor
    · intro t member
      rcases mem_replaceFirst member with rfl | old
      · exact changes s (kept.studios s (List.mem_of_find?_eq_some found))
      · exact (kept.studios t old).mono included
    · exact kept.params

theorem addStudio (kept : d.Kept ops parameters) (fresh : StudioId) (name : String) :
    (d.addStudio fresh name).Kept ops parameters := by
  constructor
  · intro s member
    rcases List.mem_append.mp member with old | new
    · exact kept.studios s old
    · cases List.mem_singleton.mp new
      exact (Studio.new_kept fresh name).mono (List.nil_subset ops)
  · exact kept.params

theorem removeStudio (kept : d.Kept ops parameters) {id : StudioId} {s : Studio} {next : Document}
    (removed : d.removeStudio? id = some (s, next)) : next.Kept ops parameters := by
  unfold removeStudio? at removed
  dsimp only at removed
  split at removed
  · cases removed
  · split at removed
    · cases removed
      exact ⟨fun t member => kept.studios t (List.mem_of_mem_eraseP member), kept.params⟩
    · cases removed

theorem renameParameter (kept : d.Kept ops parameters) {id : ParameterId} {name : String}
    {takes : String → Bool} {next : Document}
    (renamed : d.renameParameter id name takes = .ok next) : next.Kept ops parameters := by
  unfold Document.renameParameter at renamed
  split at renamed
  · cases renamed
  · next p found =>
    obtain ⟨params, changed, renamed⟩ := ok_of_bind renamed
    cases renamed
    constructor
    · intro s member
      obtain ⟨old, listed, rfl⟩ := List.mem_map.mp member
      exact (kept.studios old listed).renameParameter p.name name takes
    · exact kept.params.rename changed

theorem apply (kept : d.Kept ops parameters) (edit : Edit)
    (freshOp : ∀ id, edit.makesOp? = some id → id ∉ ops)
    (freshParameter : ∀ id, edit.makesParameter? = some id → id ∉ parameters) :
    (edit.apply d).Kept (edit.makesOp?.toList ++ ops)
      (edit.makesParameter?.toList ++ parameters) := by
  cases edit with
  | studio id edit =>
    exact kept.changeStudio (List.subset_append_right _ _)
      (fun s kept => kept.apply edit freshOp) id
  | renameStudio id name =>
    apply kept.changeStudio (List.Subset.refl ops)
    intro s kept
    exact kept.of_skeleton (fun _ => rfl) rfl kept.cutoff fun _ present => present
  | touch id now =>
    apply kept.changeStudio (List.Subset.refl ops)
    intro s kept
    exact kept.of_skeleton (fun _ => rfl) rfl kept.cutoff fun _ present => present
  | addStudio fresh name => exact kept.addStudio fresh name
  | removeStudio id =>
    rw [Edit.apply]
    cases removed : d.removeStudio? id with
    | none => exact kept
    | some outcome => exact kept.removeStudio removed
  | parameters edit =>
    rw [Edit.apply]
    cases accepted : edit.apply d.params with
    | ok params => exact ⟨kept.studios, kept.params.apply freshParameter accepted⟩
    | error e => exact kept.mono (List.Subset.refl ops) (List.subset_append_right _ _)
  | renameParameter id name takes =>
    rw [Edit.apply]
    cases renamed : d.renameParameter id name takes with
    | ok next => exact kept.renameParameter renamed
    | error e => exact kept

theorem run (kept : d.Kept ops parameters) (edits : List Edit) (own : OwnIds edits)
    (freshOps : ∀ id ∈ edits.filterMap Edit.makesOp?, id ∉ ops)
    (freshParameters : ∀ id ∈ edits.filterMap Edit.makesParameter?, id ∉ parameters) :
    ∃ moreOps moreParameters, (edits.foldl Edit.apply d).Kept moreOps moreParameters := by
  induction edits generalizing d ops parameters with
  | nil => exact ⟨ops, parameters, kept⟩
  | cons edit rest ih =>
    obtain ⟨ownOps, laterOps⟩ := fresh_behind own.1 freshOps
    obtain ⟨ownParameters, laterParameters⟩ := fresh_behind own.2 freshParameters
    apply ih _ ⟨ownOps, ownParameters⟩ laterOps laterParameters
    apply kept.apply edit
    · intro id makes
      exact freshOps id (List.mem_filterMap.mpr ⟨edit, List.mem_cons_self, makes⟩)
    · intro id makes
      exact freshParameters id (List.mem_filterMap.mpr ⟨edit, List.mem_cons_self, makes⟩)

end Kept

theorem new_kept (fresh : StudioId) : (new fresh).Kept [] [] where
  studios s member := by
    cases List.mem_singleton.mp member
    exact Studio.new_kept fresh firstStudioName
  params := Parameters.kept_empty

/-- Edits in any order and with any arguments leave well-formed feature trees and evaluated
parameters. -/
theorem exists_kept (fresh : StudioId) (edits : List Edit) (own : OwnIds edits) :
    ∃ ops parameters, (after fresh edits).Kept ops parameters :=
  (new_kept fresh).run edits own (fun _ _ => List.not_mem_nil) fun _ _ => List.not_mem_nil

end Parametric.Document
