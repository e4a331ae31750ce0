import Parametric.Proofs.Parameters.Dependents
/-! A new parameter that no formula mentions.

It depends on others and none depends on it, so it closes no cycle, and all others are evaluated
as before.
-/

set_option autoImplicit false

namespace Parametric

def Formula.Mentions (source name : String) : Prop :=
  ∃ e, parse source = .ok e ∧ name ∈ e.mentions

instance (source name : String) : Decidable (Formula.Mentions source name) :=
  match parsed : Formula.parse source with
  | .ok e => decidable_of_iff (name ∈ e.mentions) (by simp [Formula.Mentions, parsed])
  | .error _ => isFalse (by simp [Formula.Mentions, parsed])

namespace Parameters

open Parameter

variable {list : List Parameter} {params next : Parameters} {p : Parameter}

theorem add_eq {name formula : String} (fresh : ParameterId) (unit : Option String)
    (parsed : (Formula.parse formula).isOk = true) (valid : Token.isName name = true)
    (free : name ∉ params.list.map (·.name)) : params.add fresh name formula unit =
      .ok (ofList (params.list ++ [⟨fresh, name, formula, 0.0, unit⟩])) := by
  have unnamed : (params.list.any fun p => p.name = name && some p.id ≠ none) = false := by
    simpa using free
  obtain ⟨e, parsed⟩ := ok_of_isOk parsed
  simp only [add, checkName, valid, unnamed, checkFormula, parsed]
  rfl

/-- Evaluated parameters without a recorded failure have no cycle, since those on a cycle record
it. -/
theorem acyclic_of_unfailed (unfailed : (ofList list).errors = .empty) :
    (graph list).Acyclic := by
  cases scheduled : (graph list).schedule with
  | ok order =>
    rw [DependencyGraph.acyclic_iff, scheduled]
    rfl
  | error path =>
    exfalso
    rw [ofList, scheduled] at unfailed
    dsimp only at unfailed
    obtain ⟨node, rest, rfl, _, chain⟩ := DependencyGraph.schedule_cycle scheduled
    obtain ⟨d, more, behind⟩ := List.exists_cons_of_ne_nil
      (List.append_ne_nil_of_right_ne_nil rest (List.cons_ne_nil node []))
    rw [List.cons_append, behind] at chain
    have edge := (List.isChain_cons_cons.mp chain).1
    obtain ⟨p, member, rfl⟩ := List.mem_map.mp (contains_graph.mp edge.node_present)
    have recorded : p ∈ list.filter (·.name ∈ p.name :: rest ++ [p.name]) :=
      List.mem_filter.mpr ⟨member, by simp⟩
    have failed :
        (SortedMap.empty : SortedMap ParameterId ParameterError).contains p.id = true := by
      rw [← unfailed, SortedMap.contains_ofList, List.map_map]
      exact List.mem_map_of_mem recorded
    cases failed

theorem seen_eq_lookup (names : DistinctNames params.list) (unfailed : params.errors = .empty) :
    params.seen = params.lookup := by
  funext name
  have none (id : ParameterId) : params.error? id = none := by rw [error?, unfailed]; rfl
  simp [seen, lookup_eq names, none]

theorem distinctNames_append (names : DistinctNames list) (free : p.name ∉ list.map (·.name)) :
    DistinctNames (list ++ [p]) := by
  rw [DistinctNames, List.map_append]
  exact List.nodup_append_comm.mp (List.nodup_cons.mpr ⟨free, names⟩)

theorem distinctIds_append (ids : DistinctIds list) (new : p.id ∉ list.map (·.id)) :
    DistinctIds (list ++ [p]) := by
  rw [DistinctIds, List.map_append]
  exact List.nodup_append_comm.mp (List.nodup_cons.mpr ⟨new, ids⟩)

theorem mem_of_mem_append {q : Parameter} (member : q ∈ list ++ [p]) (apart : q.name ≠ p.name) :
    q ∈ list := by
  rcases List.mem_append.mp member with old | new
  · exact old
  · exact absurd (congrArg (·.name) (List.mem_singleton.mp new)) apart

theorem edge_of_sublist {others : List Parameter} (fewer : list.Sublist others)
    (names : DistinctNames others) {a d : String} (edge : (graph list).Edge a d) :
    (graph others).Edge a d := by
  obtain ⟨q, member, rfl⟩ := List.mem_map.mp (contains_graph.mp edge.node_present)
  obtain ⟨listed, found⟩ := (edge_iff (names.sublist (fewer.map _)) member).mp edge
  exact (edge_iff names (fewer.subset member)).mpr ⟨(fewer.map _).subset listed, found⟩

theorem acyclic_of_sublist {others : List Parameter} (fewer : list.Sublist others)
    (names : DistinctNames others) (acyclic : (graph others).Acyclic) : (graph list).Acyclic :=
  fun node back => acyclic node
    (Relation.TransGen.mono (fun _ _ => edge_of_sublist fewer names) _ _ back)

theorem acyclic_append (names : DistinctNames (list ++ [p])) (acyclic : (graph list).Acyclic)
    (unmentioned : ∀ q ∈ list ++ [p], ¬ Formula.Mentions q.expression p.name) :
    (graph (list ++ [p])).Acyclic := by
  have fewer : DistinctNames list := names.sublist ((List.sublist_append_left list [p]).map _)
  have target {a d : String} (edge : (graph (list ++ [p])).Edge a d) : d ≠ p.name := by
    obtain ⟨q, member, rfl⟩ := List.mem_map.mp (contains_graph.mp edge.node_present)
    rintro rfl
    exact unmentioned q member ((edge_iff names member).mp edge).2
  have before {a d : String} (edge : (graph (list ++ [p])).Edge a d) (other : a ≠ p.name) :
      (graph list).Edge a d := by
    obtain ⟨q, member, rfl⟩ := List.mem_map.mp (contains_graph.mp edge.node_present)
    obtain ⟨listed, found⟩ := (edge_iff names member).mp edge
    obtain ⟨r, there, rfl⟩ := List.mem_map.mp listed
    exact (edge_iff fewer (mem_of_mem_append member other)).mpr
      ⟨List.mem_map_of_mem (mem_of_mem_append there (target edge)), found⟩
  -- A cycle enters each of its nodes, so it does not pass through the new name.
  have path {a b : String} (other : a ≠ p.name)
      (way : Relation.TransGen (graph (list ++ [p])).Edge a b) :
      Relation.TransGen (graph list).Edge a b := by
    induction way with
    | single edge => exact .single (before edge other)
    | @tail m _ way edge ih =>
      have entered : m ≠ p.name := by
        obtain ⟨_, _, last⟩ := Relation.TransGen.tail'_iff.mp way
        exact target last
      exact .tail ih (before edge entered)
  intro node back
  obtain ⟨_, _, last⟩ := Relation.TransGen.tail'_iff.mp back
  exact acyclic node (path (target last) back)

theorem Solves.seen_append (solvesNext : Solves (list ++ [p]) next) (solves : Solves list params)
    (names : DistinctNames (list ++ [p])) (acyclic : (graph (list ++ [p])).Acyclic)
    (unmentioned : ∀ q ∈ list, ¬ Formula.Mentions q.expression p.name)
    {name : String} (other : name ≠ p.name) : next.seen name = params.seen name := by
  have fewer : DistinctNames list := names.sublist ((List.sublist_append_left list [p]).map _)
  refine solvesNext.seen_congr solves names fewer acyclic (· ≠ p.name) ?_ ?_ ?_ name other
  · exact fun q member apart => ⟨q, mem_of_mem_append member apart, rfl, rfl⟩
  · intro m _ missing there
    rw [List.map_append] at missing
    exact missing (List.mem_append_left _ there)
  · rintro q member apart e parsed _ mentioned rfl
    exact unmentioned q (mem_of_mem_append member apart) ⟨e, parsed, mentioned⟩

theorem Solves.evaluate_append (solvesNext : Solves (list ++ [p]) next)
    (solves : Solves list params) (names : DistinctNames (list ++ [p]))
    (acyclic : (graph (list ++ [p])).Acyclic)
    (unmentioned : ∀ q ∈ list, ¬ Formula.Mentions q.expression p.name) {source : String}
    (apart : ¬ Formula.Mentions source p.name) :
    Formula.evaluate source next.seen = Formula.evaluate source params.seen := by
  refine Formula.evaluate_congr fun e parsed name mentioned => ?_
  refine solvesNext.seen_append solves names acyclic unmentioned ?_
  rintro rfl
  exact apart ⟨e, parsed, mentioned⟩

/-- The new parameter is settled under the values that there are, and all others stay as they
are. -/
theorem ofList_append (names : DistinctNames (params.list ++ [p]))
    (ids : DistinctIds (params.list ++ [p])) (evaluated : params.evaluate = params)
    (unfailed : params.errors = .empty)
    (unmentioned : ∀ q ∈ params.list ++ [p], ¬ Formula.Mentions q.expression p.name) :
    (ofList (params.list ++ [p])).list = params.list ++ [p.settled params.lookup] ∧
    ∀ id, (ofList (params.list ++ [p])).error? id =
      if id = p.id then p.failure? params.lookup else none := by
  have fewer : DistinctNames params.list := names.sublist ((List.sublist_append_left _ _).map _)
  have fewerIds : DistinctIds params.list := ids.sublist ((List.sublist_append_left _ _).map _)
  have acyclic : (graph params.list).Acyclic :=
    acyclic_of_unfailed ((congrArg (·.errors) evaluated).trans unfailed)
  have solves := solves_self evaluated fewer fewerIds acyclic
  have acyclicNext := acyclic_append names acyclic unmentioned
  have solvesNext := solves_ofList names ids acyclicNext
  have same (q) (member : q ∈ params.list ++ [p]) :
      Formula.evaluate q.expression (ofList (params.list ++ [p])).seen =
        Formula.evaluate q.expression params.lookup := by
    rw [← seen_eq_lookup fewer unfailed]
    exact solvesNext.evaluate_append solves names acyclicNext
      (fun q listed => unmentioned q (List.mem_append_left _ listed)) (unmentioned q member)
  have settled (q) (member : q ∈ params.list) : q.settled params.lookup = q := by
    rw [← seen_eq_lookup fewer unfailed]
    exact solves.settled_of_mem member
  constructor
  · rw [solvesNext.parameters, List.map_congr_left fun q member => settled_congr (same q member),
      List.map_append, List.map_congr_left settled, List.map_id']
    rfl
  · intro id
    split
    · next own =>
      have last : p ∈ params.list ++ [p] := List.mem_append_right _ List.mem_cons_self
      rw [own, solvesNext.failures p last, failure?_congr (same p last)]
    · next other =>
      by_cases listed : id ∈ params.list.map (·.id)
      · obtain ⟨q, member, rfl⟩ := List.mem_map.mp listed
        have there := List.mem_append_left [p] member
        rw [solvesNext.failures q there, failure?_congr (same q there),
          ← seen_eq_lookup fewer unfailed, ← solves.failures q member, error?, unfailed]
        rfl
      · exact solvesNext.noOthers id (by simpa [other] using listed)

end Parameters

end Parametric
