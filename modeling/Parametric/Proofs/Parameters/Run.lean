import Parametric.Proofs.Parameters.Edit
import Parametric.Proofs.Saved.Encoding
/-! Parameters over whole runs of edits, evaluations and reloads.

Whatever a run does, it ends in an evaluation of some list, and the list gets its names from
checked input and its values from formulas. So the outcome is described by what an evaluation
makes of such a list.
-/

set_option autoImplicit false

namespace Parametric

theorem Formula.isFinite_of_evaluate {source : String} {lookup : String → Option Float}
    {value : Float} (evaluated : evaluate source lookup = .ok value) : value.isFinite = true := by
  unfold evaluate at evaluated
  split at evaluated
  · cases evaluated
  · split at evaluated
    · cases evaluated
    · split at evaluated
      · next finite =>
        cases evaluated
        exact finite
      · cases evaluated

namespace Parameters

variable {list : List Parameter} {params next : Parameters}

/-! ## What an evaluation leaves -/

/-- The values are numbers, and the recorded failures are of parameters that are there. -/
structure Sane (params : Parameters) : Prop where
  finite : ∀ p ∈ params.list, p.value.isFinite = true
  failures : ∀ id, params.errors.contains id = true → id ∈ params.list.map (·.id)

theorem mem_setLastNamed {name : String} {value : Float} {p : Parameter}
    (member : p ∈ setLastNamed name value list) : p ∈ list ∨ p.value = value := by
  induction list with
  | nil => cases member
  | cons q rest ih =>
    rw [setLastNamed] at member
    split at member
    · rcases List.mem_cons.mp member with rfl | later
      · exact .inr rfl
      · exact .inl (List.mem_cons_of_mem _ later)
    · rcases List.mem_cons.mp member with rfl | later
      · exact .inl List.mem_cons_self
      · exact (ih later).imp_left (List.mem_cons_of_mem _)

theorem Sane.evaluateName (pass : Pass) (sane : pass.params.Sane) (name : String) :
    (pass.evaluateName name).params.Sane := by
  unfold Pass.evaluateName
  split
  · exact sane
  · next p found =>
    split
    · next value evaluated =>
      constructor
      · intro q member
        rcases mem_setLastNamed member with old | new
        · exact sane.finite q old
        · exact new ▸ Formula.isFinite_of_evaluate evaluated
      · intro id failed
        have ids := congrArg (List.map (·.1)) (outline_setLastNamed name value pass.params.list)
        rw [List.map_map, List.map_map] at ids
        exact ids ▸ sane.failures id failed
    · constructor
      · exact sane.finite
      · intro id failed
        rcases SortedMap.contains_insert.mp failed with rfl | old
        · exact List.mem_map_of_mem (List.mem_of_mem_filter (List.mem_of_getLast? found))
        · exact sane.failures id old

theorem Sane.foldl (pass : Pass) (sane : pass.params.Sane) (order : List String) :
    (order.foldl Pass.evaluateName pass).params.Sane := by
  induction order generalizing pass with
  | nil => exact sane
  | cons name rest ih => exact ih _ (sane.evaluateName pass name)

theorem sane_ofList (finite : ∀ p ∈ list, p.value.isFinite = true) : (ofList list).Sane := by
  unfold ofList
  split
  · next order _ =>
    have start : Sane ⟨list, .empty⟩ := ⟨finite, fun id failed => by cases failed⟩
    exact Sane.foldl ⟨⟨list, .empty⟩, []⟩ start order
  · constructor
    · exact finite
    · intro id failed
      have member := SortedMap.contains_ofList.mp failed
      rw [List.map_map] at member
      exact (List.filter_sublist.map _).subset member

/-! ## What an edit evaluates -/

/-- Each parameter has the name of one of the others, or a valid one, and the value of one of
them, or zero. -/
def DrawnFrom (others list : List Parameter) : Prop :=
  ∀ p ∈ list, (Token.isName p.name = true ∨ ∃ q ∈ others, p.name = q.name) ∧
    (p.value = 0.0 ∨ ∃ q ∈ others, p.value = q.value)

theorem drawnFrom_of_subset {others : List Parameter} (included : list ⊆ others) :
    DrawnFrom others list := fun p member =>
  ⟨.inr ⟨p, included member, rfl⟩, .inr ⟨p, included member, rfl⟩⟩

theorem drawnFrom_changeFirst {change : Parameter → Parameter}
    (same : ∀ p, ((change p).name, (change p).value) = (p.name, p.value)) (id : ParameterId) :
    DrawnFrom list (changeFirst id change list) := by
  intro p member
  have kept : (p.name, p.value) ∈ (changeFirst id change list).map fun p => (p.name, p.value) :=
    List.mem_map_of_mem member
  rw [map_changeFirst same id list] at kept
  obtain ⟨q, listed, equal⟩ := List.mem_map.mp kept
  exact ⟨.inr ⟨q, listed, (congrArg Prod.fst equal).symm⟩,
    .inr ⟨q, listed, (congrArg Prod.snd equal).symm⟩⟩

theorem drawnFrom_renameFirst {fresh : String} (valid : Token.isName fresh = true)
    (id : ParameterId) (old : String) (takes : String → Bool) :
    DrawnFrom list (renameFirst id old fresh takes list) := by
  intro p member
  induction list with
  | nil => cases member
  | cons q rest ih =>
    rw [renameFirst] at member
    split at member
    · rcases List.mem_cons.mp member with rfl | later
      · exact ⟨.inl valid, .inr ⟨q, List.mem_cons_self, rfl⟩⟩
      · obtain ⟨r, listed, rfl⟩ := List.mem_map.mp later
        have listed := List.mem_cons_of_mem q listed
        exact ⟨.inr ⟨r, listed, rfl⟩, .inr ⟨r, listed, rfl⟩⟩
    · rcases List.mem_cons.mp member with rfl | later
      · exact ⟨.inr ⟨q, List.mem_cons_self, rfl⟩, .inr ⟨q, List.mem_cons_self, rfl⟩⟩
      · obtain ⟨name, value⟩ := ih later
        have among {r : Parameter} : r ∈ rest → r ∈ q :: rest := List.mem_cons_of_mem q
        exact ⟨name.imp_right (Exists.imp fun _ => And.imp_left among),
          value.imp_right (Exists.imp fun _ => And.imp_left among)⟩

theorem DrawnFrom.finite {others : List Parameter} (drawn : DrawnFrom others list)
    (finite : ∀ p ∈ others, p.value.isFinite = true) : ∀ p ∈ list, p.value.isFinite = true := by
  intro p member
  rcases (drawn p member).2 with zero | ⟨q, listed, same⟩
  · rw [zero]
    decide +kernel
  · exact same ▸ finite q listed

theorem isName_of_checkName {name : String} {except : Option ParameterId}
    (free : params.checkName name except = .ok ()) : Token.isName name = true := by
  unfold checkName at free
  split at free
  · cases free
  · next valid => simpa using valid

theorem Edit.exists_list {e : Edit} (accepted : e.apply params = .ok next) :
    ∃ list, next = ofList list ∧ DrawnFrom params.list list := by
  cases e with
  | add fresh name expression unit =>
    obtain ⟨_, free, accepted⟩ := ok_of_bind accepted
    obtain ⟨_, _, accepted⟩ := ok_of_bind accepted
    cases accepted
    refine ⟨_, rfl, fun p member => ?_⟩
    rcases List.mem_append.mp member with old | new
    · exact drawnFrom_of_subset (List.Subset.refl _) p old
    · cases List.mem_singleton.mp new
      exact ⟨.inl (isName_of_checkName free), .inl rfl⟩
  | setExpression id expression =>
    obtain ⟨_, _, accepted⟩ := ok_of_bind accepted
    obtain ⟨_, _, accepted⟩ := ok_of_bind accepted
    cases accepted
    refine ⟨_, rfl, ?_⟩
    apply drawnFrom_changeFirst
    intro p
    rfl
  | rename id name takes =>
    rw [apply, Parameters.rename] at accepted
    split at accepted
    · cases accepted
    · next p found =>
      obtain ⟨_, free, accepted⟩ := ok_of_bind accepted
      cases accepted
      exact ⟨_, rfl, drawnFrom_renameFirst (isName_of_checkName free) id p.name takes⟩
  | setUnit id unit =>
    obtain ⟨_, _, accepted⟩ := ok_of_bind accepted
    cases accepted
    refine ⟨_, rfl, ?_⟩
    apply drawnFrom_changeFirst
    intro p
    rfl
  | remove id =>
    obtain ⟨_, _, accepted⟩ := ok_of_bind accepted
    cases accepted
    exact ⟨_, rfl, drawnFrom_of_subset List.eraseP_subset⟩
  | evaluate =>
    cases accepted
    exact ⟨_, rfl, drawnFrom_of_subset (List.Subset.refl _)⟩

/-! ## Runs -/

def storedText (params : Parameters) : String :=
  (Parameter.listToRon params.save).write .spread

def load? (text : String) : Option Parameters :=
  (Parameter.listSchema.read? text).map ofList

theorem load?_storedText (params : Parameters) :
    load? params.storedText = some (ofList params.list) := by
  rw [load?, storedText, (Parameter.list_stores 121 params.save).read?]
  rfl

/-- An edit, or a reload of what is stored. -/
inductive Step where
  | edit (e : Edit)
  | reload

def Step.apply (params : Parameters) : Step → Parameters
  | edit e => (e.apply params).toOption.getD params
  | reload => (load? params.storedText).getD params

theorem Step.apply_reload (params : Parameters) : reload.apply params = ofList params.list := by
  rw [apply, load?_storedText, Option.getD_some]

def Step.makes? : Step → Option ParameterId
  | edit e => e.makes?
  | reload => none

/-- What a run keeps. -/
structure Sound (made : List ParameterId) (params : Parameters) : Prop
    extends params.Kept made, params.Sane where
  valid : ∀ p ∈ params.list, Token.isName p.name = true

variable {made : List ParameterId}

theorem Sound.ofList_drawn (sound : params.Sound made) {more : List ParameterId}
    (drawn : DrawnFrom params.list list) (kept : (ofList list).Kept more) :
    (ofList list).Sound more := by
  refine { kept, sane_ofList (drawn.finite sound.finite) with valid := fun p member => ?_ }
  have name : p.name ∈ list.map (·.name) := names_ofList list ▸ List.mem_map_of_mem member
  obtain ⟨q, listed, same⟩ := List.mem_map.mp name
  rcases (drawn q listed).1 with valid | ⟨r, before, named⟩
  · exact same ▸ valid
  · exact same ▸ named ▸ sound.valid r before

theorem Sound.apply (sound : params.Sound made) {step : Step}
    (fresh : ∀ id, step.makes? = some id → id ∉ made) :
    (step.apply params).Sound (step.makes?.toList ++ made) := by
  cases step with
  | edit e =>
    rw [Step.apply]
    cases accepted : e.apply params with
    | error reason =>
      have same := sound.toKept.mono (List.subset_append_right e.makes?.toList made)
      exact { sound with toKept := same }
    | ok next =>
      have kept := sound.toKept.apply fresh accepted
      obtain ⟨list, rfl, drawn⟩ := Edit.exists_list accepted
      exact sound.ofList_drawn drawn kept
  | reload =>
    rw [Step.apply_reload, sound.evaluated]
    exact sound

theorem Sound.run_made (sound : params.Sound made) (steps : List Step)
    (distinct : (steps.filterMap Step.makes?).Nodup)
    (fresh : ∀ id ∈ steps.filterMap Step.makes?, id ∉ made) :
    (steps.foldl Step.apply params).Sound ((steps.filterMap Step.makes?).reverse ++ made) := by
  induction steps generalizing params made with
  | nil => exact sound
  | cons step rest ih =>
    obtain ⟨distinctRest, later⟩ := fresh_behind distinct fresh
    have first := sound.apply fun id makes =>
      fresh id (List.mem_filterMap.mpr ⟨step, List.mem_cons_self, makes⟩)
    have order : ((step :: rest).filterMap Step.makes?).reverse ++ made =
        (rest.filterMap Step.makes?).reverse ++ (step.makes?.toList ++ made) := by
      cases makes : step.makes? <;> simp [makes]
    rw [order]
    exact ih first distinctRest later

theorem Sound.run (sound : params.Sound made) (steps : List Step)
    (distinct : (steps.filterMap Step.makes?).Nodup)
    (fresh : ∀ id ∈ steps.filterMap Step.makes?, id ∉ made) :
    ∃ more, (steps.foldl Step.apply params).Sound more :=
  ⟨_, sound.run_made steps distinct fresh⟩

theorem sound_empty : empty.Sound [] where
  toKept := kept_empty
  finite p member := by cases member
  failures id failed := by cases failed
  valid p member := by cases member

/-- After any run from no parameters, names are valid and distinct, identifiers are distinct,
values are finite, and only parameters that are there have failures. Evaluating again changes
nothing, and what is stored is loaded as it was. All that is asked of the run is that each new
parameter has an identifier of its own. -/
theorem run_sound (steps : List Step) (distinct : (steps.filterMap Step.makes?).Nodup) :
    let params := steps.foldl Step.apply empty
    (∀ p ∈ params.list, Token.isName p.name = true) ∧ DistinctNames params.list ∧
    DistinctIds params.list ∧ (∀ p ∈ params.list, p.value.isFinite = true) ∧
    (∀ id, params.errors.contains id = true → id ∈ params.list.map (·.id)) ∧
    params.evaluate = params ∧ load? params.storedText = some params := by
  intro params
  obtain ⟨_, sound⟩ := sound_empty.run steps distinct fun _ _ => List.not_mem_nil
  refine ⟨sound.valid, sound.names, sound.ids, sound.finite, sound.failures, sound.evaluated, ?_⟩
  rw [load?_storedText, sound.evaluated]

def staleAndCyclic : List Step :=
  [.edit (.add (Id.ofNat 1) "width" "3" (some "mm")),
    .edit (.add (Id.ofNat 2) "depth" "width * 2" none),
    .edit (.add (Id.ofNat 3) "depth" "1" none), .edit (.add (Id.ofNat 4) "2x" "1" none),
    .edit (.remove (Id.ofNat 1)), .edit (.add (Id.ofNat 5) "a" "depth + 1" none),
    .edit (.add (Id.ofNat 6) "b" "a + 1" none), .reload,
    .edit (.setExpression (Id.ofNat 5) "b"), .edit (.rename (Id.ofNat 6) "c"), .reload]

theorem run_sound_staleAndCyclic :
    let params := staleAndCyclic.foldl Step.apply empty
    (staleAndCyclic.filterMap Step.makes?).Nodup ∧
    params.list.map (fun p => (p.name, p.expression, p.value)) =
      [("depth", "width * 2", 6.0), ("a", "c", 1.0), ("c", "a + 1", 2.0)] ∧
    params.errors.keys = [Id.ofNat 5, Id.ofNat 6] ∧
    params.evaluate = params ∧ load? params.storedText = some params := by
  intro params
  have distinct : (staleAndCyclic.filterMap Step.makes?).Nodup := by decide
  obtain ⟨_, _, _, _, _, evaluated, loaded⟩ := run_sound staleAndCyclic distinct
  -- The text is not read again here; that it is read is what `apply_reload` says.
  have outcome : (params.list.map fun p => (p.name, p.expression, p.value)) =
      [("depth", "width * 2", 6.0), ("a", "c", 1.0), ("c", "a + 1", 2.0)] ∧
      params.errors.keys = [Id.ofNat 5, Id.ofNat 6] := by
    simp only [params, staleAndCyclic, List.foldl_cons, List.foldl_nil, Step.apply_reload]
    decide +kernel
  exact ⟨distinct, outcome.1, outcome.2, evaluated, loaded⟩

end Parameters

end Parametric
