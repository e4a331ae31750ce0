import Parametric.Proofs.Formula.Restoration
import Parametric.Proofs.Parameters.Addition
import Parametric.Proofs.Parameters.Run
/-! Edits that another edit takes back.

Between the two, the parameters may have lost values and failures: a cycle stops the evaluation of
all of them. But formulas and names come back, and with them what an evaluation makes of them.
-/

set_option autoImplicit false

namespace Parametric.Parameters

open Parameter

variable {list : List Parameter} {params : Parameters} {p : Parameter}

/-! ## Adding and removing -/

theorem list_append (names : DistinctNames (params.list ++ [p]))
    (ids : DistinctIds (params.list ++ [p])) (evaluated : params.evaluate = params)
    (unmentioned : ∀ q ∈ params.list, ¬ Formula.Mentions q.expression p.name) :
    ∃ q, q.id = p.id ∧ (ofList (params.list ++ [p])).list = params.list ++ [q] := by
  by_cases acyclic : (graph (params.list ++ [p])).Acyclic
  · have fewer : params.list.Sublist (params.list ++ [p]) := List.sublist_append_left _ _
    have solvesNext := solves_ofList names ids acyclic
    have solves := solves_self evaluated (names.sublist (fewer.map _)) (ids.sublist (fewer.map _))
      (acyclic_of_sublist fewer names acyclic)
    have settled (q) (member : q ∈ params.list) :
        q.settled (ofList (params.list ++ [p])).seen = q := by
      have same := solvesNext.evaluate_append solves names acyclic unmentioned
        (unmentioned q member)
      rw [settled_congr same]
      exact solves.settled_of_mem member
    refine ⟨p.settled (ofList (params.list ++ [p])).seen, settled_id, ?_⟩
    have lists := solvesNext.parameters
    rwa [List.map_append, List.map_congr_left settled, List.map_id'] at lists
  · exact ⟨p, rfl, list_of_cyclic acyclic⟩

theorem remove_last {fresh : ParameterId} (unused : fresh ∉ list.map (·.id)) (own : p.id = fresh)
    (listed : params.list = list ++ [p]) : params.remove fresh = .ok (ofList list) := by
  have others (q : Parameter) (member : q ∈ list) : ¬ decide (q.id = fresh) = true :=
    fun same => unused (List.mem_map.mpr ⟨q, member, of_decide_eq_true same⟩)
  have present : (params.get? fresh).isSome = true := by
    rw [get?, List.find?_isSome]
    exact ⟨p, by simp [listed], decide_eq_true own⟩
  have left : params.list.eraseP (·.id = fresh) = list := by
    rw [listed, List.eraseP_append_right _ others]
    simp [own]
  rw [remove, checkPresent, present, left]
  rfl

/-- A new parameter that no formula mentions can be removed without a trace, whatever its own
formula is: all parameters, values and failures are as they were. It may mention itself, or fail,
or come to parameters that have a cycle. -/
theorem remove_add (steps : List Step) (distinct : (steps.filterMap Step.makes?).Nodup)
    {fresh : ParameterId} (unused : fresh ∉ steps.filterMap Step.makes?) :
    let params := steps.foldl Step.apply empty
    ∀ (name formula : String) (unit : Option String), Token.isName name = true →
      name ∉ params.list.map (·.name) →
      (∀ q ∈ params.list, ¬ Formula.Mentions q.expression name) →
      (Formula.parse formula).isOk = true →
      ∃ next, params.add fresh name formula unit = .ok next ∧ next.remove fresh = .ok params := by
  intro params name formula unit valid free unmentioned parsed
  have sound := sound_empty.run_made steps distinct fun _ _ => List.not_mem_nil
  have new : fresh ∉ params.list.map (·.id) := by
    intro listed
    have made := sound.ids_subset listed
    simp [unused] at made
  let p : Parameter := ⟨fresh, name, formula, 0.0, unit⟩
  have names : DistinctNames (params.list ++ [p]) := distinctNames_append sound.names free
  have ids : DistinctIds (params.list ++ [p]) := distinctIds_append sound.ids new
  obtain ⟨q, own, listed⟩ := list_append names ids sound.evaluated unmentioned
  refine ⟨_, add_eq fresh unit parsed valid free, ?_⟩
  rw [remove_last new own listed, sound.evaluated]

def faulty : List Step :=
  [.edit (.add (Id.ofNat 1) "width" "3" none),
    .edit (.add (Id.ofNat 2) "area" "width * width" none),
    .edit (.remove (Id.ofNat 1)), .edit (.add (Id.ofNat 3) "ratio" "area / 0" none),
    .edit (.add (Id.ofNat 4) "total" "area + ratio + 1" none)]

theorem remove_add_looped :
    let params := faulty.foldl Step.apply empty
    params.list.map (·.value) = [9.0, 0.0, 1.0] ∧ params.errors.keys = [Id.ofNat 2, Id.ofNat 3] ∧
    ∃ next, params.add (Id.ofNat 5) "n" "total + n" (some "mm") = .ok next ∧
      next.errors.keys = [Id.ofNat 5] ∧ next.remove (Id.ofNat 5) = .ok params := by
  intro params
  obtain ⟨next, added, removed⟩ := remove_add faulty (by decide +kernel)
    (show Id.ofNat 5 ∉ faulty.filterMap Step.makes? by decide +kernel) "n" "total + n" (some "mm")
    (by decide +kernel) (by decide +kernel) (by decide +kernel) (by decide +kernel)
  refine ⟨by decide +kernel, by decide +kernel, next, added, ?_, removed⟩
  have failed : ((params.add (Id.ofNat 5) "n" "total + n" (some "mm")).toOption.map
      (·.errors.keys)) = some [Id.ofNat 5] := by decide +kernel
  rw [added] at failed
  exact Option.some.inj failed

/-! ## Renaming there and back -/

variable {others : List Parameter} {lookup : String → Option Float} {fresh : String}
  {takes : String → Bool}

theorem failure?_of_outline (same : list.map outline = others.map outline)
    (unfailed : ∀ q ∈ others, q.failure? lookup = none) {q : Parameter} (member : q ∈ list) :
    q.failure? lookup = none := by
  have failures : list.map (failure? lookup) = others.map (failure? lookup) :=
    map_eq_of_outline same _ fun _ _ => rfl
  have there : q.failure? lookup ∈ others.map (failure? lookup) :=
    failures ▸ List.mem_map_of_mem member
  obtain ⟨r, present, equal⟩ := List.mem_map.mp there
  rw [← equal, unfailed r present]

theorem settled_of_outline (same : list.map outline = others.map outline)
    (unfailed : ∀ q ∈ others, q.failure? lookup = none) :
    list.map (settled lookup) = others.map (settled lookup) := by
  let revalued (q : Parameter) : Parameter := { q with value := q.contribution lookup }
  have before : list.map (settled lookup) = list.map revalued :=
    List.map_congr_left fun q member =>
      settled_of_unfailed (failure?_of_outline same unfailed member)
  have after : others.map (settled lookup) = others.map revalued :=
    List.map_congr_left fun q member => settled_of_unfailed (unfailed q member)
  rw [before, after]
  exact map_eq_of_outline same revalued fun _ _ => rfl

/-- Evaluated parameters without failures come back from any that differ from them in values
only. -/
theorem ofList_eq_of_outline (evaluated : params.evaluate = params)
    (names : DistinctNames params.list) (ids : DistinctIds params.list)
    (unfailed : params.errors = .empty) (same : list.map outline = params.list.map outline) :
    ofList list = params := by
  have acyclic : (graph params.list).Acyclic :=
    acyclic_of_unfailed ((congrArg (·.errors) evaluated).trans unfailed)
  have solves := solves_self evaluated names ids acyclic
  have unrecorded (id : ParameterId) : params.error? id = none := by
    rw [error?, unfailed]
    rfl
  have succeeds (q) (member : q ∈ params.list) : q.failure? params.seen = none := by
    rw [← solves.failures q member, unrecorded]
  have solvesList : Solves list params :=
    { parameters := solves.parameters.trans (settled_of_outline same succeeds).symm
      failures := fun q member =>
        (unrecorded q.id).trans (failure?_of_outline same succeeds member).symm
      noOthers := fun id _ => unrecorded id }
  have sameNames : list.map (·.name) = params.list.map (·.name) :=
    map_eq_of_outline same _ fun _ _ => rfl
  have sameIds : list.map (·.id) = params.list.map (·.id) :=
    map_eq_of_outline same _ fun _ _ => rfl
  refine solvesList.ofList_eq ?_ ?_ (graph_eq_of_outline same ▸ acyclic)
  · rwa [DistinctNames, sameNames]
  · rwa [DistinctIds, sameIds]

theorem outline_renamedBy (same : list.map outline = others.map outline) :
    (list.map (renamedBy p fresh takes)).map outline =
      (others.map (renamedBy p fresh takes)).map outline := by
  rw [List.map_map, List.map_map]
  refine map_eq_of_outline same _ fun q value => ?_
  simp only [Function.comp_apply, renamedBy]
  split <;> rfl

theorem renamedBy_renamedBy {q r : Parameter} (ids : DistinctIds params.list)
    (member : p ∈ params.list) (oldName : Token.isName p.name = true)
    (freshName : Token.isName fresh = true) (taken : takes p.name = true → takes fresh = true)
    (listed : q ∈ params.list) (own : r.id = p.id) (called : r.name = fresh)
    (absent : q ≠ p → Formula.hasWord fresh.toList none q.expression.toList = false) :
    renamedBy r p.name takes (renamedBy p fresh takes q) = q := by
  by_cases same : q.id = p.id
  · obtain rfl := ids.eq listed member same
    simp [renamedBy, own]
  · have apart : q ≠ p := fun equal => same (congrArg (·.id) equal)
    have restored := Formula.rename_rename oldName freshName taken (absent apart)
    simp [renamedBy, own, same, called, restored]

/-- Renaming a parameter and then giving it its old name back restores all parameters without
failures, if the name in between is no other parameter's and no word of another formula, and the
pattern engine that finds the old name finds it too. In between formulas may fail, or come to
mention what the new name meant before. -/
theorem rename_back (evaluated : params.evaluate = params) (names : DistinctNames params.list)
    (valid : ∀ q ∈ params.list, Token.isName q.name = true) (ids : DistinctIds params.list)
    (unfailed : params.errors = .empty) (member : p ∈ params.list)
    (freshName : Token.isName fresh = true) (free : fresh ∉ params.list.map (·.name))
    (taken : takes p.name = true → takes fresh = true)
    (absent : ∀ q ∈ params.list, q ≠ p →
      Formula.hasWord fresh.toList none q.expression.toList = false) :
    ∃ between, params.rename p.id fresh takes = .ok between ∧
      between.rename p.id p.name takes = .ok params := by
  have oldName := valid p member
  let between := ofList (params.list.map (renamedBy p fresh takes))
  have outlines :
      between.list.map outline = (params.list.map (renamedBy p fresh takes)).map outline :=
    outline_ofList _
  have idsBetween : DistinctIds between.list := distinctIds_ofList.mpr (distinctIds_renamedBy ids)
  -- The renamed parameter may have another value in between.
  obtain ⟨r, present, same⟩ :
      ∃ r ∈ between.list, outline r = outline (renamedBy p fresh takes p) := by
    rw [← List.mem_map, outlines]
    exact List.mem_map_of_mem (List.mem_map_of_mem member)
  have own : r.id = p.id := (congrArg (·.1) same).trans renamedBy_id
  have called : r.name = fresh := by
    have named : r.name = (renamedBy p fresh takes p).name := congrArg (·.2.1) same
    rw [named, renamedBy_name, if_pos rfl]
  have freeBetween (q) (listed : q ∈ between.list) (taken : q.name = p.name) : q.id = r.id := by
    have there := List.mem_map_of_mem (f := outline) listed
    rw [outlines, List.map_map] at there
    obtain ⟨s, origin, equal⟩ := List.mem_map.mp there
    have sameId : s.id = q.id := renamedBy_id.symm.trans (congrArg (·.1) equal)
    have sameName : (renamedBy p fresh takes s).name = q.name := congrArg (·.2.1) equal
    rw [renamedBy_name] at sameName
    split at sameName
    · next itself => exact (sameId.symm.trans itself).trans own.symm
    · next other => exact absurd (names.eq origin member (sameName.trans taken) ▸ rfl) other
  have there := rename_of_free ids member freshName
    (fun q listed same => absurd (List.mem_map.mpr ⟨q, listed, same⟩) free) takes
  have back := rename_of_free idsBetween present oldName freeBetween takes
  rw [own] at back
  have restored :
      (params.list.map (renamedBy p fresh takes)).map (renamedBy r p.name takes) = params.list := by
    rw [List.map_map]
    refine (List.map_congr_left fun q listed => ?_).trans (List.map_id _)
    exact renamedBy_renamedBy ids member oldName freshName taken listed own called
      (absent q listed)
  refine ⟨between, there, back.trans (congrArg Except.ok ?_)⟩
  refine ofList_eq_of_outline evaluated names ids unfailed ?_
  rw [outline_renamedBy outlines, restored]

def exponent : Parameters :=
  ⟨[⟨⟨1⟩, "e5", "2", 2.0, none⟩, ⟨⟨2⟩, "length", "1.e5 + e5", 100002.0, some "mm"⟩,
    ⟨⟨3⟩, "most", "max (length, e5)", 100002.0, none⟩], .empty⟩

theorem rename_back_broken :
    let takes (word : String) := decide (word.length ≤ 1000)
    ∃ between, exponent.rename ⟨1⟩ "x" takes = .ok between ∧
      between.list.map (·.expression) = ["2", "1.x + x", "max (length, x)"] ∧
      between.list.map (·.value) = [2.0, 100002.0, 2.0] ∧ between.errors.keys = [⟨2⟩] ∧
      between.rename ⟨1⟩ "e5" takes = .ok exponent := by
  intro takes
  obtain ⟨between, there, back⟩ := @rename_back exponent ⟨⟨1⟩, "e5", "2", 2.0, none⟩ "x" takes
    (by decide +kernel) (by decide +kernel) (by decide +kernel) (by decide +kernel)
    (by decide +kernel) (.head _) (by decide +kernel) (by decide +kernel) (fun _ => by decide)
    (by decide +kernel)
  have broken : (exponent.rename ⟨1⟩ "x" takes).toOption.map (fun params =>
      (params.list.map (·.expression), params.list.map (·.value), params.errors.keys)) =
      some (["2", "1.x + x", "max (length, x)"], [2.0, 100002.0, 2.0], [⟨2⟩]) := by decide +kernel
  rw [there] at broken
  obtain ⟨expressions, rest⟩ := Prod.mk.inj (Option.some.inj broken)
  obtain ⟨values, failed⟩ := Prod.mk.inj rest
  exact ⟨between, there, expressions, values, failed, back⟩

end Parametric.Parameters
