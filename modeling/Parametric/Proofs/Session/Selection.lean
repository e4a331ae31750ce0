import Parametric.Proofs.Session.Run
/-! Which selected features a session still has.

The selection is no part of the snapshots, so each command that makes features disappear has
to deselect them. Deleting, undoing and redoing do; removing a studio does not.
-/

set_option autoImplicit false

namespace Parametric

namespace Selection

variable {s : Selection} {id other : OpId}

theorem contains_select :
    (s.select id).contains other = true ↔ other = id ∨ s.contains other = true :=
  SortedMap.contains_insert

theorem contains_selectOnly (s : Selection) :
    (s.selectOnly id).contains other = true ↔ other = id := by
  rw [selectOnly, contains_select]
  simp [empty, contains, SortedMap.contains]

theorem contains_deselect :
    (s.deselect id).contains other = true ↔ other ≠ id ∧ s.contains other = true :=
  SortedMap.contains_erase

theorem contains_filter {keep : OpId → Bool} :
    (s.filter keep).contains id = true ↔ s.contains id = true ∧ keep id = true := by
  unfold contains filter
  rw [SortedMap.contains_iff, SortedMap.contains_iff, ← exists_and_right]
  exact exists_congr fun _ => SortedMap.get?_filter

end Selection

/-! ## Features that edits keep -/

theorem Studio.contains_append {s : Studio} {op : Op} {dependencies : List OpId} {id : OpId}
    (held : s.contains id = true) : (s.append op dependencies).contains id = true :=
  SortedMap.contains_insert.mpr (.inr held)

theorem Studio.contains_update {s : Studio} {id other : OpId} {change : Op → Op}
    (held : s.contains id = true) : ((s.update? other change).getD s).contains id = true := by
  unfold update?
  split
  · exact held
  · dsimp only
    split
    · exact SortedMap.contains_insert.mpr (.inr held)
    · exact held

theorem Studio.Edit.contains_apply {s : Studio} {id : OpId} {e : Edit} (held : s.contains id = true)
    (other : e ≠ .delete id) : (e.apply s).contains id = true := by
  cases e with
  | addSketch | addExtrude | addRevolve | addFillet | addBoolean => exact contains_append held
  | update | setSuppressed => exact contains_update held
  | delete removed =>
    rw [apply, delete?]
    split
    · exact held
    · have apart : id ≠ removed := fun same => other (same ▸ rfl)
      exact SortedMap.contains_erase.mpr ⟨apart, held⟩
  | renameParameter old fresh takes => exact (SortedMap.contains_map s.nodes _ id).trans held
  | addPlane | setCutoff | rollbackToEnd => exact held
  | rollbackTo last =>
    rw [apply, rollbackTo?]
    cases s.indexOf? last <;> exact held
  | editSketch sketch change =>
    rw [apply, Studio.editSketch]
    split <;> exact held

namespace Document

variable {d next : Document} {id : OpId}

theorem hasOp_iff : d.hasOp id = true ↔ ∃ u ∈ d.studios, u.contains id = true :=
  List.any_eq_true

theorem hasOp_mapStudios {change : Studio → Studio}
    (keeps : ∀ u, u.contains id = true → (change u).contains id = true)
    (held : d.hasOp id = true) : (d.mapStudios change).hasOp id = true := by
  obtain ⟨u, listed, contains⟩ := hasOp_iff.mp held
  exact hasOp_iff.mpr ⟨change u, List.mem_map_of_mem listed, keeps u contains⟩

theorem hasOp_changeStudio {studio : StudioId} {change : Studio → Studio}
    (keeps : ∀ u, u.contains id = true → (change u).contains id = true)
    (held : d.hasOp id = true) : (d.changeStudio studio change).hasOp id = true := by
  unfold changeStudio
  split
  · exact held
  · next found first =>
    obtain ⟨before, after, studios, _, replaced⟩ := split_at_first first
    obtain ⟨u, listed, contains⟩ := hasOp_iff.mp held
    rw [hasOp_iff]
    change ∃ u ∈ replaceFirst studio (change found) d.studios, _
    rw [replaced]
    rw [studios] at listed
    rcases List.mem_append.mp listed with earlier | here
    · exact ⟨u, List.mem_append_left _ earlier, contains⟩
    · rcases List.mem_cons.mp here with rfl | later
      · exact ⟨change u, List.mem_append_cons_self, keeps u contains⟩
      · exact ⟨u, List.mem_append_right _ (List.mem_cons_of_mem _ later), contains⟩

theorem hasOp_removeStudio {studio : StudioId} {removed : Studio}
    (removes : d.removeStudio? studio = some (removed, next)) (held : d.hasOp id = true) :
    next.hasOp id = true ∨ d.studio? studio = some removed ∧ removed.contains id = true := by
  obtain ⟨u, listed, contains⟩ := hasOp_iff.mp held
  unfold removeStudio? at removes
  dsimp only at removes
  split at removes
  · cases removes
  · next found first =>
    split at removes
    · cases removes
      obtain ⟨before, after, studios, erased, _⟩ := split_at_first first
      rw [studios] at listed
      rw [hasOp_iff]
      change (∃ u ∈ d.studios.eraseP (·.id = studio), u.contains id = true) ∨ _
      rw [erased]
      rcases List.mem_append.mp listed with earlier | here
      · exact .inl ⟨u, List.mem_append_left _ earlier, contains⟩
      · rcases List.mem_cons.mp here with rfl | later
        · exact .inr ⟨first, contains⟩
        · exact .inl ⟨u, List.mem_append_right _ later, contains⟩
    · cases removes

end Document

namespace Session

variable {s t : Session} {now : Timestamp} {id : OpId}

/-- Editing a document loses a feature only by deleting it or removing its studio. -/
theorem Command.Edits.hasOp {d next : Document} {c : Command} (edits : c.Edits d next)
    (held : d.hasOp id = true) : next.hasOp id = true ∨ (∃ studio, c = .deleteOp studio id) ∨
      ∃ studio removed, c = .removeStudio studio ∧ d.studio? studio = some removed ∧
        removed.contains id = true := by
  cases edits with
  | @studio _ e studio performs =>
    by_cases deletes : e = .delete id
    · subst deletes
      cases performs with
      | deleteOp studio => exact .inr (.inl ⟨studio, rfl⟩)
    · refine .inl (Document.hasOp_changeStudio (fun u contains => ?_) held)
      exact Studio.Edit.contains_apply contains deletes
  | parameters => exact .inl held
  | @renameParameter parameter name takes _ renamed =>
    unfold Document.renameParameter at renamed
    split at renamed
    · cases renamed
    · next p found =>
      obtain ⟨params, _, same⟩ := ok_of_bind renamed
      cases same
      refine .inl (Document.hasOp_mapStudios (fun u contains => ?_) held)
      exact Studio.Edit.contains_apply (e := .renameParameter p.name name takes) contains nofun
  | addStudio fresh name =>
    obtain ⟨u, listed, contains⟩ := Document.hasOp_iff.mp held
    exact .inl (Document.hasOp_iff.mpr ⟨u, List.mem_append_left _ listed, contains⟩)
  | @removeStudio studio removed _ removes =>
    rcases Document.hasOp_removeStudio removes held with kept | ⟨first, contains⟩
    · exact .inl kept
    · exact .inr (.inr ⟨studio, removed, rfl, first, contains⟩)

theorem hasOp_record {next : Document} (before : s.document.hasOp id = true)
    (held : next.hasOp id = true) : (s.record now next).document.hasOp id = true := by
  rw [record_document]
  split
  · exact before
  · refine Document.hasOp_mapStudios (fun u contains => ?_) held
    split <;> exact contains

/-- A feature is selected and the present document does not have it. -/
def Lost (s : Session) (id : OpId) : Prop :=
  s.selection.contains id = true ∧ s.document.hasOp id = false

theorem not_lost_prune : ¬ (prune s).Lost id := by
  rintro ⟨selected, missing⟩
  have held : s.document.hasOp id = true := (Selection.contains_filter.mp selected).2
  exact absurd (missing.symm.trans held) Bool.false_ne_true

theorem not_lost_undo (undone : s.undo? = some t) : ¬ t.Lost id := by
  unfold undo? at undone
  split at undone <;> cases undone
  exact not_lost_prune

theorem not_lost_redo (redone : s.redo? = some t) : ¬ t.Lost id := by
  unfold redo? at redone
  split at redone <;> cases redone
  exact not_lost_prune

inductive Action where
  | command (now : Timestamp) (c : Command)
  | select (op : OpId)
  | selectOnly (op : OpId)
  | toggle (op : OpId)
  | deselect (op : OpId)
  | clear

namespace Action

def apply (s : Session) : Action → Session
  | command now c => c.apply s now
  | select op => { s with selection := s.selection.select op }
  | selectOnly op => { s with selection := s.selection.selectOnly op }
  | toggle op => { s with selection := s.selection.toggle op }
  | deselect op => { s with selection := s.selection.deselect op }
  | clear => { s with selection := .empty }

def Allowed (s : Session) : Action → Prop
  | select op | selectOnly op | toggle op => s.document.hasOp op = true
  | command .. | deselect _ | clear => True

instance (s : Session) : (a : Action) → Decidable (a.Allowed s)
  | select op | selectOnly op | toggle op =>
    inferInstanceAs (Decidable (s.document.hasOp op = true))
  | command .. | deselect _ | clear => .isTrue trivial

end Action

def perform (s : Session) (actions : List Action) : Session :=
  actions.foldl Action.apply s

def AllowedFrom (s : Session) : List Action → Prop
  | [] => True
  | a :: rest => a.Allowed s ∧ AllowedFrom (a.apply s) rest

def decideAllowedFrom (s : Session) : (actions : List Action) → Decidable (AllowedFrom s actions)
  | [] => .isTrue trivial
  | a :: rest =>
    have := decideAllowedFrom (a.apply s) rest
    inferInstanceAs (Decidable (_ ∧ _))

instance (s : Session) (actions : List Action) : Decidable (AllowedFrom s actions) :=
  decideAllowedFrom s actions

/-- The studio that a removal removes has the feature, which is selected. -/
def RemovesSelected (s : Session) (studio : StudioId) (id : OpId) : Prop :=
  s.selection.contains id = true ∧
    ∃ u, s.document.studio? studio = some u ∧ u.contains id = true

theorem Command.contains_selects {c : Command} {selection : Selection}
    (selected : (c.selects selection).contains id = true) :
    selection.contains id = true ∧ ∀ studio, c ≠ .deleteOp studio id := by
  cases c with
  | deleteOp studio op =>
    obtain ⟨apart, before⟩ := Selection.contains_deselect.mp selected
    refine ⟨before, fun other same => apart ?_⟩
    cases same
    rfl
  | _ => exact ⟨selected, nofun⟩

/-- A feature that is lost after a command was lost before, or the command removes its studio. -/
theorem Command.Leads.lost {c : Command} (leads : c.Leads s now t) (lost : t.Lost id) :
    s.Lost id ∨ ∃ studio, c = .removeStudio studio ∧ s.RemovesSelected studio id := by
  have recorded {next : Document} (before : s.document.hasOp id = true)
      (missing : (s.record now next).document.hasOp id = false) : next.hasOp id ≠ true :=
    fun held => Bool.false_ne_true (missing.symm.trans (hasOp_record before held))
  cases leads with
  | @edited _ next edits =>
    obtain ⟨selected, kept⟩ := Command.contains_selects lost.1
    cases before : s.document.hasOp id with
    | false => exact .inl ⟨selected, before⟩
    | true =>
      rcases edits.hasOp before with held | ⟨studio, deletes⟩ | ⟨studio, u, removes, removed⟩
      · exact absurd held (recorded before lost.2)
      · exact absurd deletes (kept studio)
      · exact .inr ⟨studio, removes, selected, u, removed⟩
  | unchanged =>
    refine .inl ⟨record_selection ▸ lost.1, ?_⟩
    cases before : s.document.hasOp id with
    | false => rfl
    | true => exact absurd before (recorded before lost.2)
  | undo undone => exact absurd lost (not_lost_undo undone)
  | redo redone => exact absurd lost (not_lost_redo redone)

theorem Action.lost {a : Action} (allowed : a.Allowed s) (lost : (a.apply s).Lost id) :
    s.Lost id ∨
      ∃ now studio, a = .command now (.removeStudio studio) ∧ s.RemovesSelected studio id := by
  obtain ⟨selected, missing⟩ := lost
  -- What is selected now is in the document, so it is not what is missing.
  have old {op : OpId} (held : s.document.hasOp op = true) (gone : s.document.hasOp id = false)
      (either : id = op ∨ s.selection.contains id = true) : s.Lost id := by
    rcases either with rfl | before
    · exact absurd (gone.symm.trans held) Bool.false_ne_true
    · exact ⟨before, gone⟩
  cases a with
  | command now c =>
    rw [apply, Command.apply] at selected missing
    cases accepted : c.run? s now with
    | none => rw [accepted] at selected missing; exact .inl ⟨selected, missing⟩
    | some t =>
      rw [accepted] at selected missing
      rcases (Command.run?_leads accepted).lost ⟨selected, missing⟩ with
        before | ⟨studio, rfl, removes⟩
      · exact .inl before
      · exact .inr ⟨now, studio, rfl, removes⟩
  | select op => exact .inl (old allowed missing (Selection.contains_select.mp selected))
  | selectOnly op =>
    have only : id = op := s.selection.contains_selectOnly.mp selected
    exact .inl (old allowed missing (.inl only))
  | toggle op =>
    simp only [apply, Selection.toggle] at selected
    split at selected
    · exact .inl (old allowed missing (.inr (Selection.contains_deselect.mp selected).2))
    · exact .inl (old allowed missing (Selection.contains_select.mp selected))
  | deselect op => exact .inl ⟨(Selection.contains_deselect.mp selected).2, missing⟩
  | clear => cases selected

/-- Each feature that is lost after a run was lost all along, or its studio was removed while it
was selected, and it is lost since. -/
theorem perform_lost {actions : List Action} (allowed : AllowedFrom s actions)
    (lost : (s.perform actions).Lost id) :
    (∀ part, part <+: actions → (s.perform part).Lost id) ∨
      ∃ before now studio after, actions = before ++ .command now (.removeStudio studio) :: after ∧
        (s.perform before).RemovesSelected studio id ∧
        ∀ part, part <+: after →
          (s.perform (before ++ .command now (.removeStudio studio) :: part)).Lost id := by
  induction actions generalizing s with
  | nil =>
    refine .inl fun part initial => ?_
    rw [List.prefix_nil.mp initial]
    exact lost
  | cons a rest ih =>
    obtain ⟨first, later⟩ := allowed
    rcases ih later lost with always | ⟨before, now, studio, after, rfl, removes, since⟩
    · have here : (a.apply s).Lost id := always [] (List.nil_prefix)
      rcases Action.lost first here with old | ⟨now, studio, rfl, removes⟩
      · refine .inl fun part initial => ?_
        rcases List.prefix_cons_iff.mp initial with rfl | ⟨more, rfl, shorter⟩
        · exact old
        · exact always more shorter
      · exact .inr ⟨[], now, studio, rest, rfl, removes, always⟩
    · exact .inr ⟨a :: before, now, studio, after, rfl, removes, since⟩

/-- If a run starts with no selected feature missing and selects only features that are there,
each selected feature is there after it, unless a command has removed its studio while it was
selected, and it is missing since then. -/
theorem selected_present {actions : List Action}
    (start : ∀ id, s.selection.contains id = true → s.document.hasOp id = true)
    (allowed : AllowedFrom s actions)
    (selected : (s.perform actions).selection.contains id = true) :
    (s.perform actions).document.hasOp id = true ∨
      ∃ before now studio after, actions = before ++ .command now (.removeStudio studio) :: after ∧
        (s.perform before).RemovesSelected studio id ∧
        ∀ part, part <+: after →
          (s.perform (before ++ .command now (.removeStudio studio) :: part)).Lost id := by
  cases held : (s.perform actions).document.hasOp id with
  | true => exact .inl rfl
  | false =>
    rcases perform_lost allowed ⟨selected, held⟩ with always | removed
    · obtain ⟨before, missing⟩ := always [] List.nil_prefix
      exact absurd (missing.symm.trans (start id before)) Bool.false_ne_true
    · exact .inr removed

/-- Two studios with a sketch each, both selected; one sketch is deleted, and so deselected. The
deletion is undone, the sketch selected again, and its creation undone. -/
def selectedTwice : List Action :=
  [.command ⟨0, 0⟩ (.addStudio (Id.ofNat 5)),
    .command ⟨1, 0⟩ (.createSketch (Id.ofNat 1) (Id.ofNat 10) (Id.ofNat 2) none),
    .command ⟨2, 0⟩ (.createSketch (Id.ofNat 5) (Id.ofNat 11) (Id.ofNat 3) none),
    .select (Id.ofNat 2), .toggle (Id.ofNat 3),
    .command ⟨3, 0⟩ (.deleteOp (Id.ofNat 5) (Id.ofNat 3)), .command ⟨4, 0⟩ .undo,
    .toggle (Id.ofNat 3), .command ⟨5, 0⟩ .undo]

theorem selected_present_undone :
    let s := start (.new (Id.ofNat 1)) .standard
    AllowedFrom s selectedTwice ∧
    (s.perform (selectedTwice.dropLast)).selection.toList = [Id.ofNat 2, Id.ofNat 3] ∧
    (s.perform selectedTwice).selection.toList = [Id.ofNat 2] ∧
    (s.perform selectedTwice).document.hasOp (Id.ofNat 2) = true := by
  intro s
  have allowed : AllowedFrom s selectedTwice := by decide +kernel
  have selected : (s.perform selectedTwice).selection.contains (Id.ofNat 2) = true := by
    decide +kernel
  refine ⟨allowed, by decide +kernel, by decide +kernel, ?_⟩
  rcases selected_present (fun id none => by cases none) allowed selected with
    held | ⟨before, now, studio, after, split, _⟩
  · exact held
  · have member : .command now (.removeStudio studio) ∈ selectedTwice := by
      rw [split]
      exact List.mem_append_cons_self
    simp [selectedTwice] at member

def removedSelected : List Action :=
  [.command ⟨0, 0⟩ (.addStudio (Id.ofNat 5)),
    .command ⟨1, 0⟩ (.createSketch (Id.ofNat 5) (Id.ofNat 10) (Id.ofNat 2) none),
    .select (Id.ofNat 2), .command ⟨2, 0⟩ (.removeStudio (Id.ofNat 5))]

theorem removedSelected_lost :
    let s := start (.new (Id.ofNat 1)) .standard
    s.selection.toList = [] ∧ AllowedFrom s removedSelected ∧
    (s.perform removedSelected).selection.toList = [Id.ofNat 2] ∧
    (s.perform removedSelected).document.studios.map (·.id) = [Id.ofNat 1] ∧
    (s.perform removedSelected).document.hasOp (Id.ofNat 2) = false := by
  decide +kernel

end Session

end Parametric
