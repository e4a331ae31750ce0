import Parametric.Proofs.Outcome
import Parametric.Proofs.Parameters.Renaming
/-! Parameters after any edits: evaluated, and with names and identifiers of their own.

An accepted edit evaluates a changed list, so what has to be kept is that names and
identifiers are distinct.
-/

set_option autoImplicit false

namespace Parametric

namespace Parameters

inductive Edit where
  | add (fresh : ParameterId) (name expression : String) (unit : Option String)
  | setExpression (id : ParameterId) (expression : String)
  | rename (id : ParameterId) (name : String) (takes : String → Bool := Formula.anyWord)
  | setUnit (id : ParameterId) (unit : Option String)
  | remove (id : ParameterId)
  | evaluate

namespace Edit

def apply (params : Parameters) : Edit → Except ParameterEditError Parameters
  | add fresh name expression unit => params.add fresh name expression unit
  | setExpression id expression => params.setExpression id expression
  | rename id name takes => params.rename id name takes
  | setUnit id unit => params.setUnit id unit
  | remove id => params.remove id
  | evaluate => .ok params.evaluate

def makes? : Edit → Option ParameterId
  | add fresh .. => some fresh
  | _ => none

end Edit

/-- Evaluated parameters with distinct names and with distinct identifiers that are among
the ones made so far. -/
structure Kept (made : List ParameterId) (params : Parameters) : Prop where
  names : DistinctNames params.list
  ids : DistinctIds params.list
  made : ∀ p ∈ params.list, p.id ∈ made
  evaluated : ofList params.list = params

variable {made : List ParameterId} {params : Parameters}

theorem Kept.mono {fewer more : List ParameterId} (kept : params.Kept fewer)
    (included : fewer ⊆ more) : params.Kept more :=
  { kept with made := fun p member => included (kept.made p member) }

theorem kept_empty : empty.Kept made where
  names := List.nodup_nil
  ids := List.nodup_nil
  made p member := by cases member
  evaluated := rfl

theorem kept_ofList {list : List Parameter} (names : DistinctNames list) (ids : DistinctIds list)
    (among : list.map (·.id) ⊆ made) : (ofList list).Kept made where
  names := distinctNames_ofList.mpr names
  ids := distinctIds_ofList.mpr ids
  made p member := by
    apply among
    rw [← ids_ofList]
    exact List.mem_map_of_mem member
  evaluated := ofList_again names ids

theorem Kept.ids_subset (kept : params.Kept made) : params.list.map (·.id) ⊆ made := by
  intro id member
  obtain ⟨p, listed, rfl⟩ := List.mem_map.mp member
  exact kept.made p listed

/-! ## Each edit -/

theorem name_ne_of_checkName {name : String} {except : Option ParameterId}
    (free : params.checkName name except = .ok ()) {q : Parameter} (member : q ∈ params.list)
    (other : some q.id ≠ except) : q.name ≠ name := by
  rintro rfl
  have taken : (params.list.any fun p => p.name = q.name && some p.id ≠ except) = true := by
    apply List.any_eq_true.mpr
    exact ⟨q, member, by simpa using other⟩
  rw [checkName, taken] at free
  split at free <;> cases free

theorem map_changeFirst {α : Type} {f : Parameter → α} {change : Parameter → Parameter}
    (same : ∀ p, f (change p) = f p) (id : ParameterId) (list : List Parameter) :
    (changeFirst id change list).map f = list.map f := by
  induction list with
  | nil => rfl
  | cons p rest ih =>
    rw [changeFirst]
    split
    · rw [List.map_cons, same, List.map_cons]
    · rw [List.map_cons, ih, List.map_cons]

theorem Kept.changeFirst (kept : params.Kept made) {change : Parameter → Parameter}
    (name : ∀ p, (change p).name = p.name) (id : ∀ p, (change p).id = p.id) (first : ParameterId) :
    (ofList (Parameters.changeFirst first change params.list)).Kept made := by
  apply kept_ofList
  · unfold DistinctNames
    rw [map_changeFirst name]
    exact kept.names
  · unfold DistinctIds
    rw [map_changeFirst id]
    exact kept.ids
  · rw [map_changeFirst id]
    exact kept.ids_subset

theorem Kept.add (kept : params.Kept made) {fresh : ParameterId} {name expression : String}
    {unit : Option String} (unused : fresh ∉ made) {next : Parameters}
    (added : params.add fresh name expression unit = .ok next) : next.Kept (fresh :: made) := by
  obtain ⟨_, free, added⟩ := ok_of_bind added
  obtain ⟨_, _, added⟩ := ok_of_bind added
  cases added
  apply kept_ofList
  · unfold DistinctNames
    rw [List.map_append, List.nodup_append]
    refine ⟨kept.names, List.nodup_singleton _, ?_⟩
    intro taken listed new single
    obtain ⟨q, member, rfl⟩ := List.mem_map.mp listed
    cases List.mem_singleton.mp single
    exact name_ne_of_checkName free member nofun
  · unfold DistinctIds
    rw [List.map_append, List.nodup_append]
    refine ⟨kept.ids, List.nodup_singleton _, ?_⟩
    rintro taken listed new single rfl
    cases List.mem_singleton.mp single
    exact unused (kept.ids_subset listed)
  · intro id member
    rw [List.map_append] at member
    rcases List.mem_append.mp member with old | new
    · exact List.mem_cons_of_mem _ (kept.ids_subset old)
    · exact List.mem_singleton.mp new ▸ List.mem_cons_self

theorem Kept.rename (kept : params.Kept made) {id : ParameterId} {name : String}
    {takes : String → Bool} {next : Parameters}
    (renamed : params.rename id name takes = .ok next) : next.Kept made := by
  unfold Parameters.rename at renamed
  split at renamed
  · cases renamed
  · next p found =>
    obtain ⟨-, rfl⟩ := of_get? found
    obtain ⟨_, free, renamed⟩ := ok_of_bind renamed
    cases renamed
    have ids : (params.list.map (renamedBy p name takes)).map (·.id) = params.list.map (·.id) := by
      rw [List.map_map]
      exact List.map_congr_left fun q _ => renamedBy_id
    rw [renameFirst_eq kept.ids]
    apply kept_ofList
    · -- The new name belongs to one parameter, and no other had it before.
      have apart : params.list.Pairwise fun q r => q.name ≠ r.name ∧ q.id ≠ r.id :=
        (List.pairwise_map.mp kept.names).and (List.pairwise_map.mp kept.ids)
      unfold DistinctNames
      rw [List.map_map]
      apply List.pairwise_map.mpr
      apply apart.imp_of_mem
      intro q r first second apart
      have notTaken : ∀ t ∈ params.list, t.id ≠ p.id → t.name ≠ name := by
        intro t member other
        exact name_ne_of_checkName free member (by simpa using other)
      rw [Function.comp_apply, Function.comp_apply, renamedBy_name, renamedBy_name]
      split
      · next here =>
        rw [if_neg fun there => apart.2 (here.trans there.symm)]
        exact (notTaken r second fun there => apart.2 (here.trans there.symm)).symm
      · next elsewhere =>
        split
        · exact notTaken q first elsewhere
        · exact apart.1
    · unfold DistinctIds
      rw [ids]
      exact kept.ids
    · rw [ids]
      exact kept.ids_subset

theorem Kept.remove (kept : params.Kept made) {id : ParameterId} {next : Parameters}
    (removed : params.remove id = .ok next) : next.Kept made := by
  obtain ⟨_, _, removed⟩ := ok_of_bind removed
  cases removed
  have fewer : (params.list.eraseP (·.id = id)).Sublist params.list := List.eraseP_sublist
  apply kept_ofList
  · exact kept.names.sublist (fewer.map _)
  · exact kept.ids.sublist (fewer.map _)
  · exact fun other member => kept.ids_subset ((fewer.map _).subset member)

theorem Kept.apply (kept : params.Kept made) {edit : Edit}
    (fresh : ∀ id, edit.makes? = some id → id ∉ made) {next : Parameters}
    (accepted : edit.apply params = .ok next) : next.Kept (edit.makes?.toList ++ made) := by
  cases edit with
  | add id name expression unit => exact kept.add (fresh id rfl) accepted
  | setExpression id expression =>
    obtain ⟨_, _, accepted⟩ := ok_of_bind accepted
    obtain ⟨_, _, accepted⟩ := ok_of_bind accepted
    cases accepted
    apply kept.changeFirst
    · intro p
      rfl
    · intro p
      rfl
  | rename id name takes => exact kept.rename accepted
  | setUnit id unit =>
    obtain ⟨_, _, accepted⟩ := ok_of_bind accepted
    cases accepted
    apply kept.changeFirst
    · intro p
      rfl
    · intro p
      rfl
  | remove id => exact kept.remove accepted
  | evaluate =>
    cases accepted
    exact kept_ofList kept.names kept.ids kept.ids_subset

end Parameters

end Parametric
