import Parametric.Proofs.Parameters.Cyclic
import Parametric.Proofs.Parameters.Renaming
/-! The order in which parameters are listed does not count.

The graph of the parameters is the same in every order, so a search in it finds the same
schedule or the same cycle. A schedule gives an equation with one solution, and on a cycle the
failures are recorded by name.
-/

set_option autoImplicit false

namespace Parametric.Parameters

open Parameter

variable {list others : List Parameter} {params permuted : Parameters}

theorem graph_perm (names : DistinctNames list) (same : list.Perm others) :
    graph list = graph others := by
  have needs (p : Parameter) : p.needs (list.map (·.name)) = p.needs (others.map (·.name)) := by
    unfold needs
    simp only [(same.map _).mem_iff]
  have nodes : (list.map fun p => (p.name, p.needs (list.map (·.name)))).Perm
      (others.map fun p => (p.name, p.needs (others.map (·.name)))) := by
    simp only [needs]
    exact same.map _
  refine SortedMap.ofList_perm ?_ nodes
  rw [List.map_map]
  exact names

theorem cycleErrors_perm (same : list.Perm others) (path : List String) :
    cycleErrors list path = cycleErrors others path := by
  refine SortedMap.eq_of_get? fun id => Option.ext fun e => ?_
  rw [get?_cycleErrors, get?_cycleErrors]
  simp only [same.mem_iff]

/-- Evaluations in two orders make the same of each parameter and record the same failures. -/
theorem exists_settle (names : DistinctNames list) (ids : DistinctIds list)
    (same : list.Perm others) : ∃ settle : Parameter → Parameter,
      (ofList list).list = list.map settle ∧ (ofList others).list = others.map settle ∧
        (ofList others).errors = (ofList list).errors := by
  have graphs := graph_perm names same
  cases scheduled : (graph list).schedule with
  | ok order =>
    have acyclic : (graph list).Acyclic := by
      rw [DependencyGraph.acyclic_iff, scheduled]
      rfl
    have solves := solves_ofList names ids acyclic
    have solvesOther : Solves others (ofList others) :=
      solves_ofList ((same.map _).nodup_iff.mp names) ((same.map _).nodup_iff.mp ids)
        (graphs ▸ acyclic)
    have seen := solves.seen_unique solvesOther names (same.map _) acyclic
    refine ⟨_, solves.parameters, ?_, (solves.errors_eq solvesOther same seen).symm⟩
    rw [seen]
    exact solvesOther.parameters
  | error path =>
    have cyclic : ofList list = ⟨list, cycleErrors list path⟩ := by
      rw [ofList, scheduled]
      rfl
    have cyclicOther : ofList others = ⟨others, cycleErrors others path⟩ := by
      rw [ofList, ← graphs, scheduled]
      rfl
    rw [cyclic, cyclicOther]
    have recorded := cycleErrors_perm same path
    exact ⟨id, (List.map_id list).symm, (List.map_id others).symm, recorded.symm⟩

theorem get?_perm (ids : DistinctIds params.list) (same : params.list.Perm permuted.list)
    (id : ParameterId) : permuted.get? id = params.get? id := by
  by_cases listed : id ∈ params.list.map (·.id)
  · obtain ⟨p, member, rfl⟩ := List.mem_map.mp listed
    have otherIds : DistinctIds permuted.list := (same.map _).nodup_iff.mp ids
    rw [get?_of_mem ids member, get?_of_mem otherIds (same.mem_iff.mp member)]
  · have absent (p : Parameter) (member : p ∈ params.list) : ¬ decide (p.id = id) = true :=
      fun own => listed (List.mem_map.mpr ⟨p, member, of_decide_eq_true own⟩)
    rw [get?, get?, List.find?_eq_none.mpr absent, List.find?_eq_none]
    exact fun p member => absent p (same.mem_iff.mpr member)

/-- Evaluation does not depend on the order in which the parameters are listed: each has the same
value and the same failure, and the same cycle is found and recorded. The order itself is kept. -/
theorem evaluate_perm (names : DistinctNames params.list) (ids : DistinctIds params.list)
    (same : params.list.Perm permuted.list) :
    (∀ id, permuted.evaluate.get? id = params.evaluate.get? id) ∧
    permuted.evaluate.errors = params.evaluate.errors ∧
    (graph permuted.list).findCycle = (graph params.list).findCycle ∧
    permuted.evaluate.list.map outline = permuted.list.map outline := by
  obtain ⟨settle, list, permutedList, errors⟩ := exists_settle names ids same
  refine ⟨fun id => ?_, errors, ?_, outline_ofList permuted.list⟩
  · have settled : params.evaluate.list.Perm permuted.evaluate.list := by
      rw [evaluate, evaluate, list, permutedList]
      exact same.map settle
    exact get?_perm (distinctIds_ofList.mpr ids) settled id
  · rw [graph_perm names same]

def backwards : Parameters :=
  ⟨[⟨⟨1⟩, "c", "b * a", 0.0, none⟩, ⟨⟨2⟩, "b", "a + 1", 0.0, none⟩,
    ⟨⟨3⟩, "a", "3 + bad", 0.0, none⟩, ⟨⟨4⟩, "bad", "1 / 0", 7.0, none⟩], .empty⟩

theorem evaluate_perm_reversed :
    let forwards : Parameters := ⟨backwards.list.reverse, .empty⟩
    let turned : Parameters := ⟨looped.list.reverse, .empty⟩
    (∀ id, forwards.evaluate.get? id = backwards.evaluate.get? id) ∧
    forwards.evaluate.errors = backwards.evaluate.errors ∧
    backwards.evaluate.list.map (·.value) = [12.0, 4.0, 3.0, 7.0] ∧
    backwards.evaluate.errors.keys = [⟨4⟩] ∧
    turned.evaluate.errors = looped.evaluate.errors ∧
    (graph turned.list).findCycle = some ["y", "x", "y"] := by
  intro forwards turned
  have names : DistinctNames backwards.list := by decide +kernel
  have ids : DistinctIds backwards.list := by decide +kernel
  obtain ⟨found, errors, -⟩ := evaluate_perm names ids
    (show backwards.list.Perm forwards.list from (List.reverse_perm _).symm)
  have loopedNames : DistinctNames looped.list := by decide +kernel
  have loopedIds : DistinctIds looped.list := by decide +kernel
  obtain ⟨-, cyclic, cycle, -⟩ := evaluate_perm loopedNames loopedIds
    (show looped.list.Perm turned.list from (List.reverse_perm _).symm)
  refine ⟨found, errors, by decide +kernel, by decide +kernel, cyclic, ?_⟩
  rw [cycle]
  decide +kernel

end Parametric.Parameters
