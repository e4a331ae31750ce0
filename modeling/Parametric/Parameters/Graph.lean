import Parametric.SortedMap
/-! Dependency graphs between names.

A node lists the names it depends on. Some of the names may be no nodes of the
graph; the searches leave them out. A search ends since it meets no node twice:
what has not been met gets lighter with each node.
-/

set_option autoImplicit false

namespace Parametric

/-- The names that each node depends on, in increasing order. -/
abbrev DependencyGraph := SortedMap String (List String)

namespace DependencyGraph

def sortedNames (names : List String) : List String :=
  (SortedMap.ofList (names.map (·, ()))).keys

/-- The graph of a list of nodes; a node listed twice depends on all that is listed. -/
def ofEdges (edges : List (String × List String)) : DependencyGraph :=
  edges.foldl (fun g edge =>
    g.insert edge.1 (sortedNames ((g.get? edge.1).getD [] ++ edge.2))) .empty

/-- The nodes that a node depends on; names that are no nodes are left out. -/
def dependencies (g : DependencyGraph) (node : String) : List String :=
  ((g.get? node).getD []).filter g.contains

theorem mem_keys_of_dependency {g : DependencyGraph} {node d : String}
    (listed : d ∈ g.dependencies node) : d ∈ g.keys := by
  obtain ⟨value, found⟩ := Option.isSome_iff_exists.mp (List.mem_filter.mp listed).2
  exact List.mem_map_of_mem (SortedMap.mem_of_find found)

/-! ## What a search has not met -/

variable {α : Type} (met : SortedMap String α) (name : String) (value : α)
  (weight : String → Nat)

def unmet : List String → Nat
  | [] => 0
  | other :: rest => (if met.contains other then 0 else weight other) + unmet rest

theorem unmet_insert_le (names : List String) :
    unmet (met.insert name value) weight names ≤ unmet met weight names := by
  induction names with
  | nil => exact Nat.le_refl _
  | cons other rest ih =>
    rw [unmet, unmet]
    by_cases same : other = name
    · rw [same, met.contains_insert_self, if_pos rfl, Nat.zero_add]
      exact Nat.le_add_left_of_le ih
    · rw [met.contains_insert_of_ne same value]
      exact Nat.add_le_add_left ih _

theorem unmet_insert {names : List String} (listed : name ∈ names)
    (fresh : met.contains name = false) :
    unmet (met.insert name value) weight names + weight name ≤ unmet met weight names := by
  induction names with
  | nil => cases listed
  | cons other rest ih =>
    rw [unmet, unmet]
    by_cases same : other = name
    · have fewer := unmet_insert_le met name value weight rest
      simp only [same, met.contains_insert_self, fresh, if_true, Bool.false_eq_true, if_false]
      omega
    · have later := ih ((List.mem_cons.mp listed).resolve_left (Ne.symm same))
      rw [met.contains_insert_of_ne same value]
      omega

end DependencyGraph

end Parametric
