import Parametric.Proofs.Parameters.Evaluation
/-! What an evaluation makes of a cycle.

The search that orders the parameters fails exactly if the other one finds a cycle, and
both stop at the same parameter. Nothing is evaluated then, and each parameter on the
cycle that was found records it.
-/

set_option autoImplicit false

namespace Parametric.Parameters

variable {list : List Parameter} {path : List String}

def cycleErrors (list : List Parameter) (path : List String) :
    SortedMap ParameterId ParameterError :=
  SortedMap.ofList ((list.filter (·.name ∈ path)).map fun p => (p.id, .cycle path))

theorem get?_cycleErrors {id : ParameterId} {e : ParameterError} :
    (cycleErrors list path).get? id = some e ↔
      e = .cycle path ∧ ∃ p ∈ list, p.id = id ∧ p.name ∈ path := by
  have onPath : (cycleErrors list path).contains id = true ↔
      ∃ p ∈ list, p.id = id ∧ p.name ∈ path := by
    rw [cycleErrors, SortedMap.contains_ofList]
    simp only [List.map_map, List.mem_map, List.mem_filter, Function.comp_apply,
      decide_eq_true_eq]
    exact exists_congr fun p => by tauto
  -- All entries have the same failure, so it does not matter which one of an identifier stands.
  have only : ∀ {e}, (cycleErrors list path).get? id = some e → e = .cycle path := by
    intro e found
    obtain ⟨p, _, same⟩ := List.mem_map.mp (SortedMap.mem_of_get?_ofList found)
    exact (Prod.mk.inj same).2.symm
  constructor
  · intro found
    exact ⟨only found, onPath.mp (SortedMap.contains_of_get? found)⟩
  · rintro ⟨rfl, there⟩
    obtain ⟨e, found⟩ := SortedMap.contains_iff.mp (onPath.mpr there)
    exact only found ▸ found

theorem ofList_of_cycle (found : (graph list).findCycle = some path) :
    ofList list = ⟨list, cycleErrors list path⟩ := by
  rw [ofList, DependencyGraph.schedule_of_findCycle found]
  rfl

/-- A cycle is reported exactly if the parameters have no order. It is a path along dependencies
that starts and ends where the ordering fails and repeats no other name, and it is what the
evaluation goes by: that keeps all parameters and records the path for those on it. -/
theorem evaluate_records_cycle (params : Parameters) :
    ((graph params.list).findCycle.isSome = true ↔
      ∃ node, (graph params.list).sort = .error node) ∧
    ∀ path, (graph params.list).findCycle = some path →
      (∃ node rest, (graph params.list).sort = .error node ∧ path = node :: rest ++ [node] ∧
        (node :: rest).Nodup ∧ path.IsChain (graph params.list).Edge) ∧
      (graph params.list).schedule = .error path ∧
      params.evaluate.list = params.list ∧
      ∀ id e, params.evaluate.error? id = some e ↔
        e = .cycle path ∧ ∃ p ∈ params.list, p.id = id ∧ p.name ∈ path := by
  have agree := (graph params.list).sort_findCycle
  constructor
  · rcases agree with ⟨order, sorted, none, -⟩ | ⟨node, cycle, failed, found, -⟩
    · simp [sorted, none]
    · simp [failed, found]
  · intro path found
    rcases agree with ⟨_, _, none, -⟩ | ⟨node, cycle, failed, traced, rest, closed⟩
    · cases found.symm.trans none
    · cases found.symm.trans traced
      refine ⟨⟨node, rest, failed, closed⟩, DependencyGraph.schedule_of_findCycle found, ?_, ?_⟩
      · rw [evaluate, ofList_of_cycle found]
      · intro id e
        rw [evaluate, ofList_of_cycle found]
        exact get?_cycleErrors

def looped : Parameters :=
  ⟨[⟨⟨1⟩, "a", "y + 1", 5.0, none⟩, ⟨⟨2⟩, "x", "y * 2", 0.0, none⟩,
    ⟨⟨3⟩, "y", "x - 1", 7.0, none⟩, ⟨⟨4⟩, "z", "1 / 0", 0.0, none⟩], .empty⟩

theorem evaluate_records_cycle_looped :
    (graph looped.list).findCycle = some ["y", "x", "y"] ∧
      (graph looped.list).sort = .error "y" ∧ looped.evaluate.list = looped.list ∧
      looped.evaluate.error? ⟨2⟩ = some (.cycle ["y", "x", "y"]) ∧
      looped.evaluate.error? ⟨1⟩ = none ∧ looped.evaluate.error? ⟨4⟩ = none := by
  have found : (graph looped.list).findCycle = some ["y", "x", "y"] := by decide +kernel
  obtain ⟨⟨node, rest, failed, same, -⟩, -, kept, errors⟩ :=
    (evaluate_records_cycle looped).2 _ found
  obtain ⟨rfl, -⟩ := List.cons_eq_cons.mp same
  have others : ∀ id : ParameterId,
      (∀ p ∈ looped.list, p.id = id → p.name ∉ ["y", "x", "y"]) →
      looped.evaluate.error? id = none := by
    intro id apart
    refine Option.eq_none_iff_forall_ne_some.mpr fun e recorded => ?_
    obtain ⟨_, p, member, same, onPath⟩ := (errors id e).mp recorded
    exact apart p member same onPath
  refine ⟨found, failed, kept, (errors ⟨2⟩ _).mpr ⟨rfl, ?_⟩, others _ ?_, others _ ?_⟩
  · exact ⟨⟨⟨2⟩, "x", "y * 2", 0.0, none⟩, by simp [looped], rfl, by decide⟩
  · simp [looped]
  · simp [looped]

end Parametric.Parameters
