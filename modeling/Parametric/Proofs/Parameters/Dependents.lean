import Parametric.Proofs.Parameters.Edit
import Parametric.Proofs.Parameters.Reach
/-! How far an edit of one parameter reaches.

A parameter that is no dependent of a name mentions neither the name nor a dependent of it, so an
evaluation sees the same values there whatever the formula of the name is, and also when there is
no such parameter.
-/

set_option autoImplicit false

namespace Parametric

namespace Parameters

open Parameter

variable {list others : List Parameter} {result other params next : Parameters} {p : Parameter}
  {name : String}

theorem graph_congr (same : list.map (fun p : Parameter => (p.name, p.expression)) =
    others.map fun p : Parameter => (p.name, p.expression)) : graph list = graph others := by
  have bare : ∀ list : List Parameter, graph list =
      graph ((list.map fun p => (p.name, p.expression)).map fun e =>
        ⟨⟨0⟩, e.1, e.2, 0.0, none⟩) := by
    intro list
    simp only [graph, List.map_map]
    rfl
  rw [bare list, same, ← bare others]

theorem graph_ofList (list : List Parameter) : graph (ofList list).list = graph list := by
  have formulas := congrArg (List.map fun o => (o.2.1, o.2.2.1)) (outline_ofList list)
  rw [List.map_map, List.map_map] at formulas
  exact graph_congr formulas

/-! ## Away from one parameter -/

/-- Two lists hold the same parameters, those of one name apart. -/
def SameBut (name : String) (list others : List Parameter) : Prop :=
  ∀ p : Parameter, p.name ≠ name → (p ∈ list ↔ p ∈ others)

/-- A formula away from a parameter and its dependents mentions neither. -/
theorem mentions_outside (names : DistinctNames list) (present : name ∈ list.map (·.name))
    (member : p ∈ list) (apart : p.name ≠ name) (outside : p.name ∉ (graph list).dependents name)
    {e : Expr} (parsed : Formula.parse p.expression = .ok e) {d : String}
    (mentioned : d ∈ e.mentions) : d ≠ name ∧ d ∉ (graph list).dependents name := by
  have unreached : ¬ (d = name ∨ d ∈ (graph list).dependents name) := by
    intro reaches
    have listed : d ∈ list.map (·.name) := by
      rcases reaches with rfl | dependent
      · exact present
      · exact contains_graph.mp (DependencyGraph.contains_of_mem_dependents dependent)
    have edge := (edge_iff names member).mpr ⟨listed, e, parsed, mentioned⟩
    exact outside (DependencyGraph.mem_dependents_of_edge edge apart reaches)
  exact not_or.mp unreached

theorem Solves.evaluate_outside (solves : Solves list result) (solvesOther : Solves others other)
    (names : DistinctNames list) (otherNames : DistinctNames others)
    (acyclic : (graph list).Acyclic) (same : SameBut name list others)
    (present : name ∈ list.map (·.name)) (member : p ∈ list) (apart : p.name ≠ name)
    (outside : p.name ∉ (graph list).dependents name) :
    Formula.evaluate p.expression result.seen = Formula.evaluate p.expression other.seen := by
  have seen := solves.seen_congr solvesOther names otherNames acyclic
    (fun m => m ≠ name ∧ m ∉ (graph list).dependents name)
    (fun q listed inside => ⟨q, (same q inside.1).mp listed, rfl, rfl⟩)
    (fun m inside missing there => by
      obtain ⟨q, listed, rfl⟩ := List.mem_map.mp there
      exact missing (List.mem_map_of_mem ((same q inside.1).mpr listed)))
    (fun q listed inside e parsed m mentioned =>
      mentions_outside names present listed inside.1 inside.2 parsed mentioned)
  exact Formula.evaluate_congr fun e parsed m mentioned =>
    seen m (mentions_outside names present member apart outside parsed mentioned)

theorem Solves.get?_unchanged (solves : Solves params.list params) (solvesNext : Solves list next)
    (ids : DistinctIds list) (before : p ∈ params.list) (after : p ∈ list)
    (same : Formula.evaluate p.expression params.seen = Formula.evaluate p.expression next.seen) :
    next.get? p.id = some p ∧ next.error? p.id = params.error? p.id := by
  have idsNext : DistinctIds next.list := by
    rw [DistinctIds, solvesNext.ids_eq]
    exact ids
  have settled : p.settled next.seen = p := by
    rw [← settled_congr same]
    exact solves.settled_of_mem before
  constructor
  · exact get?_of_mem idsNext (settled ▸ solvesNext.mem_parameters after)
  · rw [solves.failures p before, solvesNext.failures p after]
    exact failure?_congr same.symm

/-- A parameter that does not depend on the one that makes the difference stays as it was. -/
theorem Solves.unchanged_outside (solves : Solves params.list params)
    (solvesNext : Solves list next) (names : DistinctNames params.list)
    (namesNext : DistinctNames list) (idsNext : DistinctIds list)
    (acyclic : (graph params.list).Acyclic) (same : SameBut name params.list list)
    (present : name ∈ params.list.map (·.name)) (member : p ∈ params.list) (apart : p.name ≠ name)
    (outside : p.name ∉ params.dependents name) :
    next.get? p.id = some p ∧ next.error? p.id = params.error? p.id := by
  refine solves.get?_unchanged solvesNext idsNext member ((same p apart).mp member) ?_
  exact solves.evaluate_outside solvesNext names namesNext acyclic same present member apart
    outside

/-! ## Each edit -/

theorem sameBut_changeFirst (change : Parameter → Parameter) (ids : DistinctIds list)
    (named : ∀ p, (change p).name = p.name) (member : p ∈ list) :
    SameBut p.name list (changeFirst p.id change list) := by
  intro q apart
  induction list with
  | nil => simp [changeFirst]
  | cons head rest ih =>
    obtain ⟨fresh, distinct⟩ := List.nodup_cons.mp ids
    rw [changeFirst]
    split
    · next first =>
      have found : head = p := ids.eq List.mem_cons_self member first
      have neither : q ≠ head ∧ q ≠ change head :=
        ⟨fun same => apart (same ▸ found ▸ rfl),
          fun same => apart (same ▸ (named head).trans (found ▸ rfl))⟩
      simp [neither]
    · next behind =>
      have later : p ∈ rest := by
        rcases List.mem_cons.mp member with rfl | later
        · exact absurd rfl behind
        · exact later
      rw [List.mem_cons, List.mem_cons, ih distinct later]

theorem sameBut_eraseP (ids : DistinctIds list) (member : p ∈ list) :
    SameBut p.name list (list.eraseP (·.id = p.id)) := by
  intro q apart
  constructor
  · intro listed
    refine (List.mem_eraseP_of_neg ?_).mpr listed
    have other : q.id ≠ p.id := fun same => apart (ids.eq listed member same ▸ rfl)
    simpa using other
  · exact List.mem_of_mem_eraseP

theorem sameBut_append (list : List Parameter) (p : Parameter) :
    SameBut p.name (list ++ [p]) list := by
  intro q apart
  have other : q ≠ p := fun same => apart (same ▸ rfl)
  simp [other]

def Edit.redefines? (params : Parameters) : Edit → Option String
  | add _ name _ _ => some name
  | setExpression first _ | remove first => (params.get? first).map (·.name)
  | rename .. | setUnit .. | evaluate => none

/-- The dependents of the parameter that an edit redefines. Those of a new parameter are found
after the edit, and those of an old one before. -/
def Edit.dependents (before after : Parameters) (name : String) : Edit → List String
  | add .. => after.dependents name
  | setExpression .. | rename .. | setUnit .. | remove _ | evaluate => before.dependents name

theorem of_redefines {id : ParameterId} (redefines : (params.get? id).map (·.name) = some name) :
    ∃ q ∈ params.list, q.id = id ∧ q.name = name := by
  obtain ⟨q, found, rfl⟩ := Option.map_eq_some_iff.mp redefines
  obtain ⟨member, own⟩ := of_get? found
  exact ⟨q, member, own, rfl⟩

/-- An edit that adds or removes a parameter, or gives it another formula, changes no other
parameter that does not depend on it: neither its value nor its failure. This is between
evaluations without cycles. -/
theorem redefinition_changes_only_dependents {edit : Edit} (names : DistinctNames params.list)
    (ids : DistinctIds params.list) (evaluated : params.evaluate = params)
    (redefines : edit.redefines? params = some name)
    (fresh : ∀ id, edit.makes? = some id → id ∉ params.list.map (·.id))
    (accepted : edit.apply params = .ok next) (acyclic : (graph params.list).Acyclic)
    (acyclicNext : (graph next.list).Acyclic) :
    ∀ p ∈ params.list, p.name ≠ name → p.name ∉ edit.dependents params next name →
      next.get? p.id = some p ∧ next.error? p.id = params.error? p.id := by
  have solves : Solves params.list params := by
    have solved := solves_evaluate names ids acyclic
    rwa [evaluated] at solved
  have kept : params.Kept (params.list.map (·.id)) :=
    ⟨names, ids, fun p member => List.mem_map_of_mem member, evaluated⟩
  have keptNext := kept.apply fresh accepted
  -- The changed list has distinct names and identifiers, since its evaluation has.
  have changed : ∀ {list : List Parameter}, ofList list = next →
      DistinctNames list ∧ DistinctIds list ∧ Solves list next ∧ graph next.list = graph list := by
    rintro list rfl
    have namesNext := distinctNames_ofList.mp keptNext.names
    have idsNext := distinctIds_ofList.mp keptNext.ids
    rw [graph_ofList] at acyclicNext
    exact ⟨namesNext, idsNext, solves_ofList namesNext idsNext acyclicNext, graph_ofList list⟩
  intro p member apart outside
  cases edit with
  | add id added expression unit =>
    cases redefines
    obtain ⟨_, _, accepted⟩ := ok_of_bind accepted
    obtain ⟨_, _, accepted⟩ := ok_of_bind accepted
    obtain ⟨namesNext, idsNext, solvesNext, sameGraph⟩ := changed (Except.ok.inj accepted)
    have there := List.mem_append_left [⟨id, name, expression, 0.0, unit⟩] member
    refine solves.get?_unchanged solvesNext idsNext member there ?_
    rw [Edit.dependents, dependents, sameGraph] at outside
    rw [sameGraph] at acyclicNext
    exact (solvesNext.evaluate_outside solves namesNext names acyclicNext (sameBut_append _ _)
      (by simp) there apart outside).symm
  | setExpression id expression =>
    obtain ⟨q, there, rfl, rfl⟩ := of_redefines redefines
    obtain ⟨_, _, accepted⟩ := ok_of_bind accepted
    obtain ⟨_, _, accepted⟩ := ok_of_bind accepted
    obtain ⟨namesNext, idsNext, solvesNext, -⟩ := changed (Except.ok.inj accepted)
    have same := sameBut_changeFirst (fun p => { p with expression }) ids (fun _ => rfl) there
    exact solves.unchanged_outside solvesNext names namesNext idsNext acyclic same
      (List.mem_map_of_mem there) member apart outside
  | remove id =>
    obtain ⟨q, there, rfl, rfl⟩ := of_redefines redefines
    obtain ⟨_, _, accepted⟩ := ok_of_bind accepted
    obtain ⟨namesNext, idsNext, solvesNext, -⟩ := changed (Except.ok.inj accepted)
    exact solves.unchanged_outside solvesNext names namesNext idsNext acyclic
      (sameBut_eraseP ids there) (List.mem_map_of_mem there) member apart outside
  | rename | setUnit | evaluate => cases redefines

def roughly : Parameters :=
  ofList [⟨⟨1⟩, "PI", "3", 0.0, none⟩, ⟨⟨2⟩, "area", "PI * 4", 0.0, none⟩,
    ⟨⟨3⟩, "flow", "1 / 0", 7.0, none⟩, ⟨⟨4⟩, "turn", "TAU / 2", 0.0, none⟩]

theorem redefinition_changes_only_dependents_roughly : ∃ next,
    (Edit.remove ⟨1⟩).apply roughly = .ok next ∧ roughly.dependents "PI" = ["area"] ∧
    next.get? ⟨2⟩ ≠ roughly.get? ⟨2⟩ ∧ roughly.error? ⟨3⟩ ≠ none ∧
    ∀ p ∈ roughly.list, p.name ≠ "PI" → p.name ∉ roughly.dependents "PI" →
      next.get? p.id = some p ∧ next.error? p.id = roughly.error? p.id := by
  have accepted : (Edit.remove ⟨1⟩).apply roughly =
      .ok (ofList (roughly.list.eraseP (·.id = ⟨1⟩))) := by decide +kernel
  have names : DistinctNames roughly.list := by decide +kernel
  have ids : DistinctIds roughly.list := by decide +kernel
  refine ⟨_, accepted, by decide +kernel, by decide +kernel, by decide +kernel, ?_⟩
  exact redefinition_changes_only_dependents names ids (by decide +kernel) (by decide +kernel)
    (by rintro _ ⟨⟩) accepted (by decide +kernel) (by decide +kernel)

end Parameters

end Parametric
