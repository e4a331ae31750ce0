import Parametric.Parameters.Basic
import Parametric.Proofs.Formula.Evaluation
import Parametric.Proofs.Parameters.Schedule
/-! The values of parameters solve one equation.

A pass evaluates the formulas one after another and shows each only the values
found so far. Each name is bound after all that its formula mentions and never
again, so what a formula gave during the pass it still gives under the values
at the end.
-/

set_option autoImplicit false

namespace Parametric

namespace Parameter

/-- The value that formulas see for a parameter whose formula is evaluated. -/
def contribution (lookup : String → Option Float) (p : Parameter) : Float :=
  match Formula.evaluate p.expression lookup with
  | .ok value => value
  | .error _ => 0.0

/-- A parameter after its formula is evaluated; a failure keeps the old value. -/
def settled (lookup : String → Option Float) (p : Parameter) : Parameter :=
  match Formula.evaluate p.expression lookup with
  | .ok value => { p with value }
  | .error _ => p

def needs (names : List String) (p : Parameter) : List String :=
  match Formula.parse p.expression with
  | .ok e => e.identifiers.filter (· ∈ names)
  | .error _ => []

def failure? (lookup : String → Option Float) (p : Parameter) : Option ParameterError :=
  match Formula.evaluate p.expression lookup with
  | .ok _ => none
  | .error e => some (.formula e)

variable {first second : String → Option Float} {p q : Parameter}

theorem mem_needs {names : List String} {name : String} : name ∈ p.needs names ↔
    name ∈ names ∧ ∃ e, Formula.parse p.expression = .ok e ∧ name ∈ e.mentions := by
  unfold needs
  cases parsed : Formula.parse p.expression with
  | error e => simp
  | ok e => simp [Expr.mem_identifiers, and_comm]

@[simp] theorem settled_name : (p.settled first).name = p.name := by
  unfold settled
  split <;> rfl

@[simp] theorem settled_id : (p.settled first).id = p.id := by
  unfold settled
  split <;> rfl

theorem contribution_eq : p.contribution first =
    if p.failure? first = none then (p.settled first).value else 0.0 := by
  unfold contribution failure? settled
  split <;> simp_all

theorem contribution_congr
    (same : Formula.evaluate p.expression first = Formula.evaluate q.expression second) :
    p.contribution first = q.contribution second := by
  rw [contribution, contribution, same]

theorem settled_congr
    (same : Formula.evaluate p.expression first = Formula.evaluate p.expression second) :
    p.settled first = p.settled second := by
  rw [settled, settled, same]

theorem failure?_congr
    (same : Formula.evaluate p.expression first = Formula.evaluate q.expression second) :
    p.failure? first = q.failure? second := by
  rw [failure?, failure?, same]

end Parameter

namespace Parameters

open Parameter

def DistinctNames (list : List Parameter) : Prop :=
  (list.map (·.name)).Nodup

def DistinctIds (list : List Parameter) : Prop :=
  (list.map (·.id)).Nodup

instance (list : List Parameter) : Decidable (DistinctNames list) :=
  inferInstanceAs (Decidable (List.Nodup _))

instance (list : List Parameter) : Decidable (DistinctIds list) :=
  inferInstanceAs (Decidable (List.Nodup _))

variable {list : List Parameter} {p q : Parameter}

theorem DistinctNames.eq (names : DistinctNames list) (first : p ∈ list) (second : q ∈ list)
    (same : p.name = q.name) : p = q :=
  List.inj_on_of_nodup_map names first second same

theorem DistinctIds.eq (ids : DistinctIds list) (first : p ∈ list) (second : q ∈ list)
    (same : p.id = q.id) : p = q :=
  List.inj_on_of_nodup_map ids first second same

/-! ## Look-ups by name -/

theorem filter_named (names : DistinctNames list) (member : p ∈ list) :
    list.filter (·.name = p.name) = [p] := by
  induction list with
  | nil => cases member
  | cons head rest ih =>
    obtain ⟨fresh, distinct⟩ := List.nodup_cons.mp names
    rcases List.mem_cons.mp member with rfl | later
    · have none_left : rest.filter (·.name = p.name) = [] := by
        rw [List.filter_eq_nil_iff]
        intro q listed same
        exact fresh (List.mem_map.mpr ⟨q, listed, of_decide_eq_true same⟩)
      simp [none_left]
    · have apart : head.name ≠ p.name := fun same =>
        fresh (List.mem_map.mpr ⟨p, later, same.symm⟩)
      simpa [apart] using ih distinct later

theorem lastNamed?_of_mem (names : DistinctNames list) (member : p ∈ list) :
    lastNamed? list p.name = some p := by
  rw [lastNamed?, filter_named names member]
  rfl

theorem named?_of_mem {params : Parameters} (names : DistinctNames params.list)
    (member : p ∈ params.list) : params.named? p.name = some p := by
  rw [named?, ← List.head?_filter, filter_named names member]
  rfl

theorem named?_eq_none {params : Parameters} {name : String}
    (absent : name ∉ params.list.map (·.name)) : params.named? name = none := by
  rw [named?, List.find?_eq_none]
  intro p member same
  exact absent (List.mem_map.mpr ⟨p, member, of_decide_eq_true same⟩)

theorem setLastNamed_eq (names : DistinctNames list) (name : String) (value : Float) :
    setLastNamed name value list =
      list.map fun p => if p.name = name then { p with value } else p := by
  induction list with
  | nil => rfl
  | cons head rest ih =>
    obtain ⟨fresh, distinct⟩ := List.nodup_cons.mp names
    rw [setLastNamed, List.map_cons, ih distinct]
    by_cases own : head.name = name
    · have others : ∀ p ∈ rest, p.name ≠ name := fun p member same =>
        fresh (List.mem_map.mpr ⟨p, member, same.trans own.symm⟩)
      have unchanged :
          (rest.map fun p => if p.name = name then { p with value } else p) = rest := by
        rw [List.map_congr_left fun p member => if_neg (others p member), List.map_id']
      rw [unchanged, if_pos own, if_pos ⟨own, by simpa using others⟩]
    · simp [own]

/-! ## The edges of the graph -/

theorem contains_graph {name : String} :
    (graph list).contains name = true ↔ name ∈ list.map (·.name) := by
  rw [graph, SortedMap.contains_ofList, List.map_map]
  rfl

theorem get?_graph (names : DistinctNames list) (member : p ∈ list) :
    (graph list).get? p.name = some (p.needs (list.map (·.name))) := by
  have distinct : ((list.map fun p => (p.name, p.needs (list.map (·.name)))).map (·.1)).Nodup := by
    rw [List.map_map]
    exact names
  exact (SortedMap.get?_ofList distinct).mpr (List.mem_map.mpr ⟨p, member, rfl⟩)

theorem edge_iff (names : DistinctNames list) (member : p ∈ list) {name : String} :
    (graph list).Edge p.name name ↔
      name ∈ list.map (·.name) ∧ ∃ e, Formula.parse p.expression = .ok e ∧ name ∈ e.mentions := by
  unfold DependencyGraph.Edge DependencyGraph.dependencies
  rw [get?_graph names member, List.mem_filter, contains_graph, Option.getD_some, mem_needs]
  exact ⟨fun edge => edge.1, fun edge => ⟨edge, edge.1⟩⟩

/-- A formula sees no difference between look-ups that agree on the dependencies of its
parameter and on the names of no parameter. -/
theorem evaluate_congr (names : DistinctNames list) (member : p ∈ list)
    {first second : String → Option Float}
    (dependencies : ∀ name, (graph list).Edge p.name name → first name = second name)
    (others : ∀ name, name ∉ list.map (·.name) → first name = second name) :
    Formula.evaluate p.expression first = Formula.evaluate p.expression second := by
  refine Formula.evaluate_congr fun e parsed name mentioned => ?_
  by_cases listed : name ∈ list.map (·.name)
  · exact dependencies name ((edge_iff names member).mpr ⟨listed, e, parsed, mentioned⟩)
  · exact others name listed

/-! ## One pass over a schedule -/

/-- What a pass has reached when it has evaluated the formulas of some names: they are
settled under the values that the pass has found, and the others are as they were. -/
structure Reached (list : List Parameter) (done : List String) (pass : Pass) : Prop where
  parameters : pass.params.list =
    list.map fun p => if p.name ∈ done then p.settled (binding? pass.values) else p
  bound : ∀ p ∈ list, p.name ∈ done →
    binding? pass.values p.name = some (p.contribution (binding? pass.values))
  unbound : ∀ name, name ∉ done → binding? pass.values name = none
  failures : ∀ p ∈ list, pass.params.error? p.id =
    if p.name ∈ done then p.failure? (binding? pass.values) else none
  noOthers : ∀ id, id ∉ list.map (·.id) → pass.params.error? id = none

theorem binding?_cons (name other : String) (value : Float) (values : List (String × Float)) :
    binding? ((name, value) :: values) other =
      if other = name then some value else binding? values other := by
  unfold binding?
  by_cases same : other = name
  · simp [same]
  · simp [same, Ne.symm same]

def recorded (errors : SortedMap ParameterId ParameterError) (id : ParameterId) :
    Option ParameterError → SortedMap ParameterId ParameterError
  | none => errors
  | some e => errors.insert id e

theorem get?_recorded {errors : SortedMap ParameterId ParameterError} {id other : ParameterId}
    {failure : Option ParameterError} (fresh : errors.get? id = none) :
    (recorded errors id failure).get? other =
      if other = id then failure else errors.get? other := by
  cases failure with
  | none =>
    split
    · next same => rw [same]; exact fresh
    · rfl
  | some e => exact errors.get?_insert id other e

theorem evaluateName_eq {pass : Pass} (names : DistinctNames pass.params.list)
    (member : p ∈ pass.params.list) : pass.evaluateName p.name =
      ⟨⟨pass.params.list.map fun q =>
            if q.name = p.name then q.settled (binding? pass.values) else q,
          recorded pass.params.errors p.id (p.failure? (binding? pass.values))⟩,
        (p.name, p.contribution (binding? pass.values)) :: pass.values⟩ := by
  rw [Pass.evaluateName, lastNamed?_of_mem names member]
  unfold failure? contribution
  cases given : Formula.evaluate p.expression (binding? pass.values) with
  | ok value =>
    have settled : ∀ q ∈ pass.params.list,
        (if q.name = p.name then { q with value } else q) =
          if q.name = p.name then q.settled (binding? pass.values) else q := by
      intro q listed
      split
      · next same =>
        rw [names.eq listed member same, Parameter.settled, given]
      · rfl
    simp only [given, recorded, setLastNamed_eq names, List.map_congr_left settled]
  | error e =>
    have settled : ∀ q ∈ pass.params.list,
        (if q.name = p.name then q.settled (binding? pass.values) else q) = q := by
      intro q listed
      split
      · next same =>
        rw [names.eq listed member same, Parameter.settled, given]
      · rfl
    simp only [given, recorded, List.map_congr_left settled, List.map_id']

namespace Reached

theorem start (list : List Parameter) : Reached list [] ⟨⟨list, .empty⟩, []⟩ where
  parameters := by simp
  bound := by simp
  unbound := by simp [binding?]
  failures := by simp [error?]
  noOthers := by simp [error?]

variable {done : List String} {pass : Pass}

theorem distinctNames (reached : Reached list done pass) (names : DistinctNames list) :
    DistinctNames pass.params.list := by
  have same : pass.params.list.map (·.name) = list.map (·.name) := by
    rw [reached.parameters, List.map_map]
    refine List.map_congr_left fun q _ => ?_
    rw [Function.comp_apply]
    split <;> simp
  unfold DistinctNames
  rw [same]
  exact names

/-- A name is ready if its parameter depends on evaluated names only. -/
structure Ready (list : List Parameter) (done : List String) (p : Parameter) : Prop where
  member : p ∈ list
  fresh : p.name ∉ done
  closed : ∀ name ∈ done ++ [p.name], ∀ d, (graph list).Edge name d → d ∈ done

-- No formula evaluated so far, nor the next one, mentions the next name. So the value that
-- the name is bound to makes no difference to any of them.
theorem keeps (names : DistinctNames list) (ready : Ready list done p) (value : Float)
    (values : List (String × Float)) : ∀ q ∈ list, q.name ∈ done ++ [p.name] →
      Formula.evaluate q.expression (binding? values) =
        Formula.evaluate q.expression (binding? ((p.name, value) :: values)) := by
  intro q listed settled
  refine evaluate_congr names listed (fun d edge => ?_) (fun name absent => ?_)
  · have before := ready.closed q.name settled d edge
    have apart : d ≠ p.name := fun same => ready.fresh (same ▸ before)
    rw [binding?_cons, if_neg apart]
  · rw [binding?_cons, if_neg]
    rintro rfl
    exact absent (List.mem_map.mpr ⟨p, ready.member, rfl⟩)

theorem step (reached : Reached list done pass) (names : DistinctNames list)
    (ids : DistinctIds list) (ready : Ready list done p) :
    Reached list (done ++ [p.name]) (pass.evaluateName p.name) := by
  have still : p ∈ pass.params.list := by
    rw [reached.parameters, List.mem_map]
    exact ⟨p, ready.member, if_neg ready.fresh⟩
  rw [evaluateName_eq (reached.distinctNames names) still]
  -- The invariant speaks of the values at hand, which the step changes: formulas evaluated
  -- before must still give what they gave.
  have same := keeps names ready (p.contribution (binding? pass.values)) pass.values
  have own : ∀ q ∈ list, q.name = p.name → q = p := fun q listed => names.eq listed ready.member
  have last : p.name ∈ done ++ [p.name] := by simp
  have unfailed : pass.params.errors.get? p.id = none := by
    have before := reached.failures p ready.member
    rwa [if_neg ready.fresh] at before
  constructor
  case parameters =>
    rw [reached.parameters, List.map_map]
    refine List.map_congr_left fun q listed => ?_
    rw [Function.comp_apply]
    by_cases before : q.name ∈ done
    · have apart : q.name ≠ p.name := fun equal => ready.fresh (equal ▸ before)
      have all : q.name ∈ done ++ [p.name] := List.mem_append_left _ before
      rw [if_pos before, if_pos all, settled_name, if_neg apart]
      exact settled_congr (same q listed all)
    · rw [if_neg before]
      by_cases equal : q.name = p.name
      · rw [if_pos equal, if_pos (equal ▸ last)]
        exact settled_congr (same q listed (equal ▸ last))
      · rw [if_neg equal, if_neg (by simp [before, equal])]
  case bound =>
    intro q listed settled
    rw [← contribution_congr (same q listed settled), binding?_cons]
    split
    · next equal => rw [own q listed equal]
    · next apart => exact reached.bound q listed (by simpa [apart] using settled)
  case unbound =>
    intro name absent
    rw [List.mem_append, List.mem_singleton, not_or] at absent
    rw [binding?_cons, if_neg absent.2]
    exact reached.unbound name absent.1
  case failures =>
    -- Failures are kept under identifiers, but it is names that are evaluated.
    intro q listed
    rw [error?, get?_recorded unfailed]
    split
    · next equal =>
      rw [ids.eq listed ready.member equal, if_pos last]
      exact failure?_congr (same p ready.member last)
    · next apart =>
      have others : q.name ≠ p.name := fun equal => apart (own q listed equal ▸ rfl)
      have before := reached.failures q listed
      rw [error?] at before
      rw [before]
      by_cases settled : q.name ∈ done
      · have all : q.name ∈ done ++ [p.name] := List.mem_append_left _ settled
        rw [if_pos settled, if_pos all]
        exact failure?_congr (same q listed all)
      · rw [if_neg settled, if_neg (by simp [settled, others])]
  case noOthers =>
    intro id absent
    have apart : id ≠ p.id := fun equal => absent (List.mem_map.mpr ⟨p, ready.member, equal.symm⟩)
    rw [error?, get?_recorded unfailed, if_neg apart]
    exact reached.noOthers id absent

theorem run (names : DistinctNames list) (ids : DistinctIds list) {order : List String}
    (topological : (graph list).Topological order) :
    Reached list order (order.foldl Pass.evaluateName ⟨⟨list, .empty⟩, []⟩) := by
  induction topological with
  | nil => exact start list
  | snoc before present fresh closed ih =>
    obtain ⟨p, member, rfl⟩ := List.mem_map.mp (contains_graph.mp present)
    rw [List.foldl_append]
    refine step ih names ids ⟨member, fresh, fun name settled d edge => ?_⟩
    rcases List.mem_append.mp settled with earlier | last
    · exact before.closed earlier edge
    · rw [List.mem_singleton.mp last] at edge
      exact closed d edge

end Reached

/-! ## The equation -/

/-- The value that the formulas of an evaluation see for a name: that of its parameter, or
zero if its formula failed. -/
def seen (params : Parameters) (name : String) : Option Float :=
  (params.named? name).map fun p => if params.error? p.id = none then p.value else 0.0

/-- The parameters are settled under what they see, and no other failures are recorded. -/
structure Solves (list : List Parameter) (result : Parameters) : Prop where
  parameters : result.list = list.map (·.settled result.seen)
  failures : ∀ p ∈ list, result.error? p.id = p.failure? result.seen
  noOthers : ∀ id, id ∉ list.map (·.id) → result.error? id = none

/-- A pass over all names has found the values that its result shows. -/
theorem Reached.solves {order : List String} {pass : Pass} (names : DistinctNames list)
    (reached : Reached list order pass) (all : ∀ name, name ∈ order ↔ name ∈ list.map (·.name)) :
    Solves list pass.params := by
  have done : ∀ p ∈ list, p.name ∈ order := fun p member =>
    (all p.name).mpr (List.mem_map.mpr ⟨p, member, rfl⟩)
  have parameters : pass.params.list = list.map (·.settled (binding? pass.values)) := by
    rw [reached.parameters]
    exact List.map_congr_left fun p member => if_pos (done p member)
  have failures : ∀ p ∈ list, pass.params.error? p.id = p.failure? (binding? pass.values) := by
    intro p member
    rw [reached.failures p member, if_pos (done p member)]
  -- Each value that formulas saw during the pass can be read off its result.
  have values : pass.params.seen = binding? pass.values := by
    funext name
    by_cases listed : name ∈ list.map (·.name)
    · obtain ⟨p, member, rfl⟩ := List.mem_map.mp listed
      have there : p.settled (binding? pass.values) ∈ pass.params.list :=
        parameters ▸ List.mem_map.mpr ⟨p, member, rfl⟩
      have found := named?_of_mem (reached.distinctNames names) there
      rw [settled_name] at found
      rw [seen, found, Option.map_some, settled_id, failures p member, ← contribution_eq]
      exact (reached.bound p member (done p member)).symm
    · have absent : name ∉ pass.params.list.map (·.name) := by
        rw [parameters, List.map_map]
        simpa [Function.comp_def] using listed
      rw [seen, named?_eq_none absent]
      exact (reached.unbound name (mt (all name).mp listed)).symm
  exact ⟨values ▸ parameters, fun p member => values ▸ failures p member, reached.noOthers⟩

theorem solves_evaluate {params : Parameters} (names : DistinctNames params.list)
    (ids : DistinctIds params.list) (acyclic : (graph params.list).Acyclic) :
    Solves params.list params.evaluate := by
  obtain ⟨order, scheduled⟩ := DependencyGraph.schedule_of_acyclic acyclic
  obtain ⟨topological, members⟩ := DependencyGraph.schedule_topological scheduled
  rw [evaluate, ofList, scheduled]
  exact (Reached.run names ids topological).solves names fun name =>
    (members name).trans contains_graph

namespace Solves

variable {result : Parameters}

theorem mem_parameters (solves : Solves list result) (member : p ∈ list) :
    p.settled result.seen ∈ result.list :=
  solves.parameters ▸ List.mem_map.mpr ⟨p, member, rfl⟩

theorem names_eq (solves : Solves list result) :
    result.list.map (·.name) = list.map (·.name) := by
  rw [solves.parameters, List.map_map]
  exact List.map_congr_left fun p _ => settled_name

theorem seen_of_mem (solves : Solves list result) (names : DistinctNames list)
    (member : p ∈ list) : result.seen p.name = some (p.contribution result.seen) := by
  have distinct : DistinctNames result.list := by
    unfold DistinctNames
    rw [solves.names_eq]
    exact names
  have found := named?_of_mem distinct (solves.mem_parameters member)
  rw [settled_name] at found
  rw [contribution_eq, ← solves.failures p member]
  simp only [seen, found, Option.map_some, settled_id]

theorem seen_eq_none (solves : Solves list result) {name : String}
    (absent : name ∉ list.map (·.name)) : result.seen name = none := by
  rw [← solves.names_eq] at absent
  rw [seen, named?_eq_none absent, Option.map_none]

theorem error?_ne (solves : Solves list result) (names : DistinctNames list) (id : ParameterId)
    (member : q ∈ list) :
    result.error? id ≠ some (.formula (.evaluation (.unknownIdentifier q.name))) := by
  intro failed
  by_cases listed : id ∈ list.map (·.id)
  · obtain ⟨p, here, rfl⟩ := List.mem_map.mp listed
    rw [solves.failures p here, failure?] at failed
    split at failed
    · cases failed
    · next e given =>
      cases failed
      have missing := Formula.evaluate_unknownIdentifier given
      rw [solves.seen_of_mem names member] at missing
      cases missing
  · rw [solves.noOthers id listed] at failed
    cases failed

end Solves

def SameFormulas (first second : List Parameter) : Prop :=
  (first.map fun p => (p.name, p.expression)).Perm (second.map fun p => (p.name, p.expression))

namespace SameFormulas

variable {others : List Parameter}

theorem symm (same : SameFormulas list others) : SameFormulas others list :=
  List.Perm.symm same

theorem exists_mem (same : SameFormulas list others) (member : p ∈ list) :
    ∃ q ∈ others, q.name = p.name ∧ q.expression = p.expression := by
  have there := same.mem_iff.mp (List.mem_map.mpr ⟨p, member, rfl⟩)
  obtain ⟨q, listed, equal⟩ := List.mem_map.mp there
  exact ⟨q, listed, congrArg Prod.fst equal, congrArg Prod.snd equal⟩

theorem names_perm (same : SameFormulas list others) :
    (list.map (·.name)).Perm (others.map (·.name)) := by
  have names := same.map Prod.fst
  rwa [List.map_map, List.map_map] at names

theorem distinctNames (same : SameFormulas list others) (names : DistinctNames list) :
    DistinctNames others :=
  same.names_perm.nodup_iff.mp names

theorem edge (same : SameFormulas list others) (names : DistinctNames list) {name d : String}
    (edge : (graph others).Edge name d) : (graph list).Edge name d := by
  obtain ⟨q, listed, rfl⟩ := List.mem_map.mp (contains_graph.mp edge.node_present)
  obtain ⟨p, member, sameName, sameExpression⟩ := same.symm.exists_mem listed
  rw [edge_iff (same.distinctNames names) listed, ← sameExpression,
    ← same.names_perm.mem_iff] at edge
  rw [← sameName]
  exact (edge_iff names member).mpr edge

theorem acyclic (same : SameFormulas list others) (names : DistinctNames list)
    (acyclic : (graph list).Acyclic) : (graph others).Acyclic :=
  fun node back => acyclic node (Relation.TransGen.mono (fun _ _ => same.edge names) _ _ back)

end SameFormulas

/-- Two evaluations see the same values in a part of the names that holds the same formulas in
both, if these formulas mention only names of that part. Old values, identifiers and the order of
the lists do not count. -/
theorem Solves.seen_congr {others : List Parameter} {result other : Parameters}
    (solves : Solves list result) (solvesOther : Solves others other)
    (names : DistinctNames list) (otherNames : DistinctNames others)
    (acyclic : (graph list).Acyclic) (part : String → Prop)
    (same : ∀ p ∈ list, part p.name → ∃ q ∈ others, q.name = p.name ∧ q.expression = p.expression)
    (absent : ∀ name, part name → name ∉ list.map (·.name) → name ∉ others.map (·.name))
    (closed : ∀ p ∈ list, part p.name → ∀ e, Formula.parse p.expression = .ok e →
      ∀ name ∈ e.mentions, part name) :
    ∀ name, part name → result.seen name = other.seen name := by
  have missing : ∀ name, part name → name ∉ list.map (·.name) →
      result.seen name = other.seen name := by
    intro name inside missing
    rw [solves.seen_eq_none missing, solvesOther.seen_eq_none (absent name inside missing)]
  obtain ⟨order, scheduled⟩ := DependencyGraph.schedule_of_acyclic acyclic
  obtain ⟨topological, members⟩ := DependencyGraph.schedule_topological scheduled
  -- Along the order, both results agree on what a formula mentions before they settle it.
  have ordered : ∀ name ∈ order, part name → result.seen name = other.seen name := by
    clear scheduled members
    induction topological with
    | nil => simp
    | snoc before present fresh dependencies ih =>
      intro name listed inside
      rcases List.mem_append.mp listed with earlier | last
      · exact ih name earlier inside
      · rw [List.mem_singleton.mp last] at inside ⊢
        obtain ⟨p, member, rfl⟩ := List.mem_map.mp (contains_graph.mp present)
        obtain ⟨q, there, sameName, sameExpression⟩ := same p member inside
        rw [solves.seen_of_mem names member, ← sameName, solvesOther.seen_of_mem otherNames there]
        congr 1
        refine contribution_congr ?_
        rw [sameExpression]
        refine Formula.evaluate_congr fun e parsed d mentioned => ?_
        have mentionedInside := closed p member inside e parsed d mentioned
        by_cases listed : d ∈ list.map (·.name)
        · have edge := (edge_iff names member).mpr ⟨listed, e, parsed, mentioned⟩
          exact ih d (dependencies d edge) mentionedInside
        · exact missing d mentionedInside listed
  intro name inside
  by_cases listed : name ∈ list.map (·.name)
  · exact ordered name ((members name).mpr (contains_graph.mpr listed)) inside
  · exact missing name inside listed

theorem Solves.seen_unique {others : List Parameter} {result other : Parameters}
    (solves : Solves list result) (solvesOther : Solves others other)
    (names : DistinctNames list) (same : SameFormulas list others)
    (acyclic : (graph list).Acyclic) : result.seen = other.seen := by
  funext name
  refine solves.seen_congr solvesOther names (same.distinctNames names) acyclic
    (fun _ => True) ?_ ?_ ?_ name trivial
  · exact fun p member _ => same.exists_mem member
  · exact fun name _ missing => mt same.names_perm.mem_iff.mpr missing
  · exact fun _ _ _ _ _ _ _ => trivial

/-- An evaluation without cycles solves its equation: each formula has the result that it
has under all values of the evaluation, with zero for those that failed. So no formula
misses a parameter, and neither old values nor the order of the list count. -/
theorem evaluate_equation {params : Parameters} (names : DistinctNames params.list)
    (ids : DistinctIds params.list) (acyclic : (graph params.list).Acyclic) :
    Solves params.list params.evaluate ∧
    (∀ id, ∀ q ∈ params.list, params.evaluate.error? id ≠
      some (.formula (.evaluation (.unknownIdentifier q.name)))) ∧
    ∀ other : Parameters, DistinctIds other.list → SameFormulas params.list other.list →
      ∀ p ∈ params.evaluate.list, ∀ q ∈ other.evaluate.list, p.name = q.name →
        params.evaluate.error? p.id = other.evaluate.error? q.id ∧
        (params.evaluate.error? p.id = none → p.value = q.value) := by
  have solves := solves_evaluate names ids acyclic
  refine ⟨solves, fun id q member => solves.error?_ne names id member, ?_⟩
  intro other otherIds same p listed q otherListed sameName
  have otherNames := same.distinctNames names
  have solvesOther := solves_evaluate otherNames otherIds (same.acyclic names acyclic)
  have seen := solves.seen_unique solvesOther names same acyclic
  rw [solves.parameters] at listed
  rw [solvesOther.parameters] at otherListed
  obtain ⟨p, member, rfl⟩ := List.mem_map.mp listed
  obtain ⟨q, otherMember, rfl⟩ := List.mem_map.mp otherListed
  rw [settled_name, settled_name] at sameName
  have sameExpression : p.expression = q.expression := by
    obtain ⟨twin, there, twinName, twinExpression⟩ := same.exists_mem member
    rw [← twinExpression, otherNames.eq there otherMember (twinName.trans sameName)]
  have given : Formula.evaluate p.expression params.evaluate.seen =
      Formula.evaluate q.expression other.evaluate.seen := by
    rw [seen, sameExpression]
  rw [settled_id, settled_id, solves.failures p member, solvesOther.failures q otherMember]
  have failures := failure?_congr given
  refine ⟨failures, fun succeeded => ?_⟩
  have contributions := contribution_congr given
  rwa [contribution_eq, contribution_eq, if_pos succeeded, if_pos (failures ▸ succeeded)]
    at contributions

def fallback : Parameters :=
  ⟨[⟨⟨1⟩, "b", "PI + 5", 7.0, none⟩, ⟨⟨2⟩, "PI", "1 / 0", 3.0, none⟩], .empty⟩

theorem evaluate_equation_fallback :
    Solves fallback.list fallback.evaluate ∧
    fallback.evaluate.list.map (·.value) = [5.0, 3.0] ∧
    fallback.evaluate.error? ⟨2⟩ = some (.formula (.evaluation .divisionByZero)) := by
  have names : DistinctNames fallback.list := by decide +kernel
  have ids : DistinctIds fallback.list := by decide +kernel
  have acyclic : (graph fallback.list).Acyclic := by decide +kernel
  exact ⟨(evaluate_equation names ids acyclic).1, by decide +kernel, by decide +kernel⟩

end Parameters

end Parametric
