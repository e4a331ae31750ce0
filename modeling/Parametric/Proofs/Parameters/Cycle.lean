import Mathlib.Data.List.Chain
import Mathlib.Data.List.Nodup
import Parametric.Parameters.Search
import Parametric.Proofs.SortedMap
/-! Cycles and topological orders of a dependency graph.

An order is topological if each node comes after its dependencies, so no node in it
lies on a cycle. A path along dependencies that comes to one of its own nodes again
closes a cycle.
-/

set_option autoImplicit false

namespace Parametric.DependencyGraph

variable {g : DependencyGraph}

/-- A node depends directly on another node of the graph. -/
def Edge (g : DependencyGraph) (node dependency : String) : Prop :=
  dependency ∈ g.dependencies node

def Acyclic (g : DependencyGraph) : Prop :=
  ∀ node, ¬ Relation.TransGen g.Edge node node

/-- A path along dependencies that starts and ends at a node and meets no other node twice. -/
def CycleAt (g : DependencyGraph) (node : String) (path : List String) : Prop :=
  ∃ rest, path = node :: rest ++ [node] ∧ (node :: rest).Nodup ∧ path.IsChain g.Edge

def Cycle (g : DependencyGraph) (path : List String) : Prop :=
  ∃ node, g.CycleAt node path

/-- Nodes, each once and after all its dependencies. -/
inductive Topological (g : DependencyGraph) : List String → Prop where
  | nil : Topological g []
  | snoc {order : List String} {node : String} (before : Topological g order)
      (present : g.contains node = true) (fresh : node ∉ order)
      (closed : ∀ d, g.Edge node d → d ∈ order) : Topological g (order ++ [node])

theorem Edge.node_present {node dependency : String} (edge : g.Edge node dependency) :
    g.contains node = true := by
  unfold Edge dependencies at edge
  cases found : g.get? node with
  | none => simp [found] at edge
  | some names => exact SortedMap.contains_of_get? found

theorem Edge.present {node dependency : String} (edge : g.Edge node dependency) :
    g.contains dependency = true :=
  (List.mem_filter.mp edge).2

theorem CycleAt.transGen {node : String} {path : List String} (cycle : g.CycleAt node path) :
    Relation.TransGen g.Edge node node := by
  obtain ⟨rest, rfl, _, chain⟩ := cycle
  cases rest with
  | nil => exact .single (List.isChain_cons_cons.mp chain).1
  | cons next rest =>
    obtain ⟨first, chain⟩ := List.isChain_cons_cons.mp chain
    have onward := List.relationReflTransGen_of_exists_isChain_cons (rest ++ [node]) chain
      (by simp : (next :: (rest ++ [node])).getLast _ = node)
    exact Relation.TransGen.head' first onward

namespace Topological

variable {order : List String}

theorem nodup (topological : g.Topological order) : order.Nodup := by
  induction topological with
  | nil => exact List.nodup_nil
  | snoc before present fresh closed ih =>
    rw [List.nodup_append]
    refine ⟨ih, List.nodup_singleton _, fun a member b last same => fresh ?_⟩
    rw [← List.mem_singleton.mp last, ← same]
    exact member

theorem present (topological : g.Topological order) {node : String} (member : node ∈ order) :
    g.contains node = true := by
  induction topological with
  | nil => cases member
  | snoc before present fresh closed ih =>
    rcases List.mem_append.mp member with earlier | last
    · exact ih earlier
    · exact List.mem_singleton.mp last ▸ present

theorem closed (topological : g.Topological order) {node dependency : String}
    (member : node ∈ order) (edge : g.Edge node dependency) : dependency ∈ order := by
  induction topological with
  | nil => cases member
  | snoc before present fresh closed ih =>
    rcases List.mem_append.mp member with earlier | last
    · exact List.mem_append_left _ (ih earlier)
    · rw [List.mem_singleton.mp last] at edge
      exact List.mem_append_left _ (closed dependency edge)

theorem idxOf_lt (topological : g.Topological order) {node dependency : String}
    (member : node ∈ order) (edge : g.Edge node dependency) :
    order.idxOf dependency < order.idxOf node := by
  induction topological with
  | nil => cases member
  | @snoc order last before present fresh closed ih =>
    by_cases earlier : node ∈ order
    · have both := before.closed earlier edge
      rw [List.idxOf_append_of_mem both, List.idxOf_append_of_mem earlier]
      exact ih earlier
    · have same : node = last := by simpa [earlier] using member
      have both := closed dependency (same ▸ edge)
      rw [List.idxOf_append_of_mem both, List.idxOf_append_of_notMem earlier]
      exact Nat.lt_of_lt_of_le (List.idxOf_lt_length_of_mem both) (Nat.le_add_right _ _)

theorem closed_trans (topological : g.Topological order) {node dependency : String}
    (member : node ∈ order) (back : Relation.ReflTransGen g.Edge node dependency) :
    dependency ∈ order := by
  induction back with
  | refl => exact member
  | tail _ edge ih => exact topological.closed ih edge

theorem acyclic (topological : g.Topological order) {node : String} (member : node ∈ order) :
    ¬ Relation.TransGen g.Edge node node := by
  induction topological with
  | nil => cases member
  | snoc before present fresh closed ih =>
    rcases List.mem_append.mp member with earlier | last
    · exact ih earlier
    · -- A cycle through the last node would go through the nodes before it.
      intro back
      rw [List.mem_singleton.mp last] at back
      obtain ⟨dependency, edge, onward⟩ := Relation.TransGen.head'_iff.mp back
      exact fresh (before.closed_trans (closed dependency edge) onward)

end Topological

/-! ## Paths -/

/-- A path along dependencies that meets no node twice; its last node comes first. -/
structure Path (g : DependencyGraph) (path : List String) : Prop where
  distinct : path.Nodup
  present : ∀ node ∈ path, g.contains node = true
  chain : path.IsChain fun inner outer => g.Edge outer inner

theorem Path.nil : g.Path [] :=
  ⟨List.nodup_nil, by simp, .nil⟩

theorem Path.cons {path : List String} {node : String} (walked : g.Path path)
    (present : g.contains node = true) (fresh : node ∉ path)
    (reached : ∀ last ∈ path.head?, g.Edge last node) : g.Path (node :: path) where
  distinct := List.nodup_cons.mpr ⟨fresh, walked.distinct⟩
  present := by
    intro n member
    rcases List.mem_cons.mp member with rfl | later
    · exact present
    · exact walked.present n later
  chain := List.isChain_cons.mpr ⟨reached, walked.chain⟩

theorem Path.tail {path : List String} {node : String} (walked : g.Path (node :: path)) :
    g.Path path where
  distinct := (List.nodup_cons.mp walked.distinct).2
  present n later := walked.present n (List.mem_cons_of_mem _ later)
  chain := walked.chain.tail

theorem closedAt_append {before after : List String} {node : String} (first : node ∉ before) :
    closedAt (before ++ node :: after) node = node :: after ++ [node] := by
  have found : (before ++ node :: after).idxOf? node = some before.length := by
    refine List.idxOf?_eq_some_iff.mpr ⟨by simp, by simp, fun i earlier same => first ?_⟩
    rw [List.getElem_append_left earlier] at same
    exact same ▸ List.getElem_mem earlier
  rw [closedAt, found, Option.getD_some, List.drop_left]

theorem Path.cycle {path : List String} {node : String} (walked : g.Path path)
    (again : node ∈ path) (reached : ∀ last ∈ path.head?, g.Edge last node) :
    g.CycleAt node (closedAt path.reverse node) := by
  -- The last node comes first, so the cycle is the front of the path in reverse.
  obtain ⟨inner, outer, same⟩ := List.append_of_mem again
  have distinct := walked.distinct
  rw [same] at distinct
  obtain ⟨front, behind, apart⟩ := List.nodup_append.mp distinct
  have first : node ∉ outer.reverse := by
    rw [List.mem_reverse]
    exact (List.nodup_cons.mp behind).1
  have rotated : closedAt path.reverse node = node :: inner.reverse ++ [node] := by
    rw [same, List.reverse_append, List.reverse_cons, List.append_assoc, List.singleton_append,
      closedAt_append first]
  refine ⟨inner.reverse, rotated, ?_, ?_⟩
  · refine List.nodup_cons.mpr ⟨fun member => ?_, List.nodup_reverse.mpr front⟩
    exact apart node (List.mem_reverse.mp member) node (by simp) rfl
  · have forward : (node :: path).reverse.IsChain g.Edge :=
      List.isChain_reverse.mpr (List.isChain_cons.mpr ⟨reached, walked.chain⟩)
    rw [rotated]
    refine forward.suffix ⟨outer.reverse, ?_⟩
    simp [same]

end Parametric.DependencyGraph
