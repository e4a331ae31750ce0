import Parametric.Proofs.Parameters.Evaluation
/-! Evaluated parameters stay as they are when they are evaluated again.

An evaluation changes nothing but values. The equation of an evaluation without cycles
has one solution, and what solves it for some list solves it for its own list. With a
cycle nothing is evaluated.
-/

set_option autoImplicit false

namespace Parametric

namespace Parameters

open Parameter

variable {list : List Parameter} {result other : Parameters}

/-! ## What an evaluation leaves as it is -/

/-- All of a parameter but its value. -/
def outline (p : Parameter) : ParameterId × String × String × Option String :=
  (p.id, p.name, p.expression, p.unit)

theorem outline_setLastNamed (name : String) (value : Float) (list : List Parameter) :
    (setLastNamed name value list).map outline = list.map outline := by
  induction list with
  | nil => rfl
  | cons p rest ih =>
    rw [setLastNamed]
    split
    · rfl
    · rw [List.map_cons, ih, List.map_cons]

theorem outline_evaluateName (pass : Pass) (name : String) :
    (pass.evaluateName name).params.list.map outline = pass.params.list.map outline := by
  unfold Pass.evaluateName
  split
  · rfl
  · split
    · exact outline_setLastNamed ..
    · rfl

theorem outline_foldl (order : List String) (pass : Pass) :
    (order.foldl Pass.evaluateName pass).params.list.map outline =
      pass.params.list.map outline := by
  induction order generalizing pass with
  | nil => rfl
  | cons name rest ih => rw [List.foldl_cons, ih, outline_evaluateName]

/-- An evaluation changes nothing but values. -/
theorem outline_ofList (list : List Parameter) :
    (ofList list).list.map outline = list.map outline := by
  unfold ofList
  split
  · exact outline_foldl ..
  · rfl

theorem map_eq_of_outline {α : Type} {others : List Parameter}
    (same : list.map outline = others.map outline) (f : Parameter → α)
    (blind : ∀ p value, f { p with value } = f p) : list.map f = others.map f := by
  let ofOutline (o : ParameterId × String × String × Option String) : α :=
    f ⟨o.1, o.2.1, o.2.2.1, 0.0, o.2.2.2⟩
  have factors (list : List Parameter) : list.map f = (list.map outline).map ofOutline := by
    rw [List.map_map]
    exact List.map_congr_left fun p _ => (blind p 0.0).symm
  rw [factors list, factors others, same]

theorem names_ofList (list : List Parameter) :
    (ofList list).list.map (·.name) = list.map (·.name) :=
  map_eq_of_outline (outline_ofList list) _ fun _ _ => rfl

theorem ids_ofList (list : List Parameter) :
    (ofList list).list.map (·.id) = list.map (·.id) :=
  map_eq_of_outline (outline_ofList list) _ fun _ _ => rfl

theorem graph_eq_of_outline {others : List Parameter}
    (same : list.map outline = others.map outline) : graph list = graph others := by
  unfold graph
  rw [map_eq_of_outline same (·.name) fun _ _ => rfl]
  exact congrArg SortedMap.ofList (map_eq_of_outline same _ fun _ _ => rfl)

@[simp] theorem distinctNames_ofList : DistinctNames (ofList list).list ↔ DistinctNames list := by
  rw [DistinctNames, names_ofList, DistinctNames]

@[simp] theorem distinctIds_ofList : DistinctIds (ofList list).list ↔ DistinctIds list := by
  rw [DistinctIds, ids_ofList, DistinctIds]

/-! ## The solution -/

theorem Solves.errors_eq {others : List Parameter} (solves : Solves list result)
    (solvesOther : Solves others other) (same : list.Perm others)
    (seen : result.seen = other.seen) : result.errors = other.errors := by
  refine SortedMap.eq_of_get? fun id => ?_
  change result.error? id = other.error? id
  by_cases listed : id ∈ list.map (·.id)
  · obtain ⟨p, member, rfl⟩ := List.mem_map.mp listed
    rw [solves.failures p member, solvesOther.failures p (same.mem_iff.mp member), seen]
  · rw [solves.noOthers id listed, solvesOther.noOthers id (mt (same.map _).mem_iff.mpr listed)]

/-- Without cycles, the equation of an evaluation has one solution. -/
theorem Solves.unique (solves : Solves list result) (solvesOther : Solves list other)
    (names : DistinctNames list) (acyclic : (graph list).Acyclic) : result = other := by
  have seen := solves.seen_unique solvesOther names (List.Perm.refl _) acyclic
  have lists : result.list = other.list := by
    rw [solves.parameters, solvesOther.parameters, seen]
  have errors := solves.errors_eq solvesOther (List.Perm.refl list) seen
  cases result
  cases other
  cases lists
  cases errors
  rfl

theorem solves_ofList (names : DistinctNames list) (ids : DistinctIds list)
    (acyclic : (graph list).Acyclic) : Solves list (ofList list) := by
  have evaluated := solves_evaluate (show DistinctNames (Parameters.mk list .empty).list from names)
  exact evaluated ids acyclic

theorem solves_self {params : Parameters} (evaluated : params.evaluate = params)
    (names : DistinctNames params.list) (ids : DistinctIds params.list)
    (acyclic : (graph params.list).Acyclic) : Solves params.list params := by
  have solved := solves_evaluate names ids acyclic
  rwa [evaluated] at solved

theorem Solves.ofList_eq (solves : Solves list result) (names : DistinctNames list)
    (ids : DistinctIds list) (acyclic : (graph list).Acyclic) : ofList list = result :=
  (solves_ofList names ids acyclic).unique solves names acyclic

theorem settled_expression {lookup : String → Option Float} {p : Parameter} :
    (p.settled lookup).expression = p.expression := by
  unfold settled
  split <;> rfl

theorem settled_of_unfailed {lookup : String → Option Float} {p : Parameter}
    (unfailed : p.failure? lookup = none) :
    p.settled lookup = { p with value := p.contribution lookup } := by
  unfold failure? at unfailed
  unfold settled contribution
  split at unfailed
  · rfl
  · cases unfailed

theorem settled_settled {lookup : String → Option Float} {p : Parameter} :
    (p.settled lookup).settled lookup = p.settled lookup := by
  cases given : Formula.evaluate p.expression lookup with
  | error e => simp only [settled, given]
  | ok value => simp only [settled, given]

theorem settled_eq_self {lookup : String → Option Float} {p : Parameter} :
    p.settled lookup = p ↔
      ∀ value, Formula.evaluate p.expression lookup = .ok value → p.value = value := by
  cases given : Formula.evaluate p.expression lookup with
  | error e => simp [settled, given]
  | ok value =>
    simp only [settled, given, Except.ok.injEq, forall_eq']
    constructor
    · intro same
      exact (congrArg Parameter.value same).symm
    · rintro rfl
      rfl

theorem failure?_settled {lookup : String → Option Float} {p : Parameter} :
    (p.settled lookup).failure? lookup = p.failure? lookup := by
  rw [failure?, settled_expression, failure?]

namespace Solves

theorem sameFormulas (solves : Solves list result) : SameFormulas list result.list := by
  unfold SameFormulas
  rw [solves.parameters, List.map_map]
  refine List.Perm.of_eq (List.map_congr_left fun p _ => ?_)
  rw [Function.comp_apply, settled_name, settled_expression]

theorem ids_eq (solves : Solves list result) :
    result.list.map (·.id) = list.map (·.id) := by
  rw [solves.parameters, List.map_map]
  exact List.map_congr_left fun p _ => settled_id

theorem settled_of_mem (solves : Solves list result) {p : Parameter} (member : p ∈ result.list) :
    p.settled result.seen = p := by
  rw [solves.parameters] at member
  obtain ⟨q, _, rfl⟩ := List.mem_map.mp member
  exact settled_settled

theorem again (solves : Solves list result) : Solves result.list result where
  parameters := by
    rw [List.map_congr_left fun p => solves.settled_of_mem, List.map_id']
  failures := by
    intro p member
    rw [solves.parameters] at member
    obtain ⟨q, listed, rfl⟩ := List.mem_map.mp member
    rw [settled_id, failure?_settled, solves.failures q listed]
  noOthers := by
    intro id absent
    rw [solves.ids_eq] at absent
    exact solves.noOthers id absent

end Solves

/-- On a cycle the list stays as it was given. -/
theorem list_of_cyclic (cyclic : ¬ (graph list).Acyclic) : (ofList list).list = list := by
  cases scheduled : (graph list).schedule with
  | ok order =>
    have succeeds : (graph list).schedule.isOk = true := by rw [scheduled]; rfl
    exact absurd (DependencyGraph.acyclic_iff.mpr succeeds) cyclic
  | error path => rw [ofList, scheduled]

/-- Evaluating again changes no parameter and no recorded failure. -/
theorem ofList_again (names : DistinctNames list) (ids : DistinctIds list) :
    ofList (ofList list).list = ofList list := by
  by_cases acyclic : (graph list).Acyclic
  · have solves := solves_ofList names ids acyclic
    exact solves.again.ofList_eq (distinctNames_ofList.mpr names) (distinctIds_ofList.mpr ids)
      (solves.sameFormulas.acyclic names acyclic)
  · rw [list_of_cyclic acyclic]

end Parameters

end Parametric
