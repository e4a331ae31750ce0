import Parametric.Parameters.Graph
/-! Depth-first search in a dependency graph, without recursion.

A search holds a stack of nodes, each with the dependencies that it has not looked
at, and a mark on every node that it has met. A dependency that is still on the
stack closes a cycle. One search puts the nodes into an order; another one reports
the cycle itself. Both start at each node in increasing order.
-/

set_option autoImplicit false

namespace Parametric.DependencyGraph

inductive Mark where
  | visiting
  | visited
  deriving DecidableEq, Repr

abbrev Marks := SortedMap String Mark

/-- A node on the stack, and those of its dependencies that have not been looked at. -/
structure Frame (g : DependencyGraph) where
  node : String
  pending : List String
  listed : pending ⊆ g.dependencies node

variable {g : DependencyGraph}

def Frame.enter (g : DependencyGraph) (node : String) : Frame g :=
  ⟨node, g.dependencies node, List.Subset.refl _⟩

/-! ## How long a search can be -/

/-- The steps that a node takes: one for each dependency, and one to leave it. -/
def cost (g : DependencyGraph) (node : String) : Nat :=
  (g.dependencies node).length + 1

def ahead : List (Frame g) → Nat
  | [] => 0
  | f :: outer => f.pending.length + 1 + ahead outer

/-- The steps that the nodes without a mark and the stack can still take. -/
def work (g : DependencyGraph) (marks : Marks) (stack : List (Frame g)) : Nat :=
  unmet marks g.cost g.keys + ahead stack

theorem work_leave (marks : Marks) (done : Frame g) (outer : List (Frame g)) :
    g.work (marks.insert done.node .visited) outer < g.work marks (done :: outer) := by
  have fewer := unmet_insert_le marks done.node .visited g.cost g.keys
  simp only [work, ahead]
  omega

theorem work_pass {node d : String} {pending : List String} (marks : Marks)
    (listed : d :: pending ⊆ g.dependencies node) (outer : List (Frame g)) :
    g.work marks (⟨node, pending, List.subset_of_cons_subset listed⟩ :: outer) <
      g.work marks (⟨node, d :: pending, listed⟩ :: outer) := by
  simp only [work, ahead, List.length_cons]
  omega

theorem work_enter {node d : String} {pending : List String} {marks : Marks}
    (listed : d :: pending ⊆ g.dependencies node) (fresh : marks.get? d = none)
    (outer : List (Frame g)) :
    g.work (marks.insert d .visiting)
        (.enter g d :: ⟨node, pending, List.subset_of_cons_subset listed⟩ :: outer) <
      g.work marks (⟨node, d :: pending, listed⟩ :: outer) := by
  have unmarked : marks.contains d = false := by simp [SortedMap.contains, fresh]
  have fewer := unmet_insert marks d .visiting g.cost
    (mem_keys_of_dependency (listed List.mem_cons_self)) unmarked
  rw [cost] at fewer
  simp only [work, Frame.enter, ahead, List.length_cons]
  omega

/-! ## Ordering the nodes -/

structure Sorting (g : DependencyGraph) where
  marks : Marks
  stack : List (Frame g)
  order : List String

namespace Sorting

/-- One step, or none if the stack is empty. It fails with the node at which a cycle closes. -/
def step (s : Sorting g) : Option (Except String (Sorting g)) :=
  match s.stack with
  | [] => none
  | ⟨node, [], _⟩ :: outer =>
    some (.ok ⟨s.marks.insert node .visited, outer, s.order ++ [node]⟩)
  | ⟨node, d :: pending, listed⟩ :: outer =>
    let rest := ⟨node, pending, List.subset_of_cons_subset listed⟩ :: outer
    match s.marks.get? d with
    | some .visiting => some (.error d)
    | some .visited => some (.ok { s with stack := rest })
    | none => some (.ok ⟨s.marks.insert d .visiting, .enter g d :: rest, s.order⟩)

/-- How a step that goes on changes the search. -/
inductive Moves : Sorting g → Sorting g → Prop where
  | leave {marks : Marks} {done : Frame g} {outer : List (Frame g)} {order : List String}
      (finished : done.pending = []) :
      Moves ⟨marks, done :: outer, order⟩
        ⟨marks.insert done.node .visited, outer, order ++ [done.node]⟩
  | pass {marks : Marks} {node d : String} {pending order : List String} {outer : List (Frame g)}
      (listed : d :: pending ⊆ g.dependencies node) (visited : marks.get? d = some .visited) :
      Moves ⟨marks, ⟨node, d :: pending, listed⟩ :: outer, order⟩
        ⟨marks, ⟨node, pending, List.subset_of_cons_subset listed⟩ :: outer, order⟩
  | enter {marks : Marks} {node d : String} {pending order : List String} {outer : List (Frame g)}
      (listed : d :: pending ⊆ g.dependencies node) (unmet : marks.get? d = none) :
      Moves ⟨marks, ⟨node, d :: pending, listed⟩ :: outer, order⟩
        ⟨marks.insert d .visiting,
          .enter g d :: ⟨node, pending, List.subset_of_cons_subset listed⟩ :: outer, order⟩

theorem moves_of_step {s next : Sorting g} (stepped : s.step = some (.ok next)) : s.Moves next := by
  obtain ⟨marks, _ | ⟨⟨node, _ | ⟨d, pending⟩, listed⟩, outer⟩, order⟩ := s
  · cases stepped
  · cases stepped
    exact .leave rfl
  · simp only [step] at stepped
    split at stepped <;> cases stepped
    · next visited => exact .pass listed visited
    · next unmet => exact .enter listed unmet

def work (s : Sorting g) : Nat :=
  g.work s.marks s.stack

theorem work_step {s next : Sorting g} (stepped : s.step = some (.ok next)) :
    next.work < s.work := by
  cases moves_of_step stepped with
  | leave => exact work_leave _ _ _
  | pass listed => exact work_pass _ listed _
  | enter listed unmet => exact work_enter listed unmet _

def run (s : Sorting g) : Except String (Sorting g) :=
  match _ : s.step with
  | none => .ok s
  | some (.error node) => .error node
  | some (.ok next) => run next
termination_by s.work
decreasing_by exact work_step ‹_›

def searchFrom (s : Sorting g) (root : String) : Except String (Sorting g) :=
  if s.marks.contains root then .ok s
  else run ⟨s.marks.insert root .visiting, [.enter g root], s.order⟩

end Sorting

/-- All nodes, each after the nodes it depends on, or a node that depends on itself. -/
def sort (g : DependencyGraph) : Except String (List String) :=
  (g.keys.foldlM Sorting.searchFrom (⟨.empty, [], []⟩ : Sorting g)).map (·.order)

/-! ## Reporting a cycle -/

structure Tracing (g : DependencyGraph) where
  marks : Marks
  stack : List (Frame g)

/-- A path from its first occurrence of a node on, and that node again. A path without the node
counts as a whole. -/
def closedAt (path : List String) (node : String) : List String :=
  path.drop ((path.idxOf? node).getD 0) ++ [node]

/-- The nodes on a stack as a path along dependencies: the node that was met last ends it. -/
def stackPath (stack : List (Frame g)) : List String :=
  (stack.map (·.node)).reverse

namespace Tracing

def step (s : Tracing g) : Option (Except (List String) (Tracing g)) :=
  match s.stack with
  | [] => none
  | ⟨node, [], _⟩ :: outer => some (.ok ⟨s.marks.insert node .visited, outer⟩)
  | ⟨node, d :: pending, listed⟩ :: outer =>
    let rest := ⟨node, pending, List.subset_of_cons_subset listed⟩ :: outer
    match s.marks.get? d with
    | some .visiting => some (.error (closedAt (stackPath rest) d))
    | some .visited => some (.ok { s with stack := rest })
    | none => some (.ok ⟨s.marks.insert d .visiting, .enter g d :: rest⟩)

def work (s : Tracing g) : Nat :=
  g.work s.marks s.stack

theorem work_step {s next : Tracing g} (stepped : s.step = some (.ok next)) :
    next.work < s.work := by
  obtain ⟨marks, _ | ⟨⟨node, _ | ⟨d, pending⟩, listed⟩, outer⟩⟩ := s
  · cases stepped
  · cases stepped
    exact work_leave marks ⟨node, [], listed⟩ outer
  · simp only [step] at stepped
    split at stepped <;> cases stepped
    · exact work_pass marks listed outer
    · next fresh => exact work_enter listed fresh outer

def run (s : Tracing g) : Except (List String) (Tracing g) :=
  match _ : s.step with
  | none => .ok s
  | some (.error cycle) => .error cycle
  | some (.ok next) => run next
termination_by s.work
decreasing_by exact work_step ‹_›

def searchFrom (s : Tracing g) (root : String) : Except (List String) (Tracing g) :=
  if s.marks.contains root then .ok s
  else run ⟨s.marks.insert root .visiting, [.enter g root]⟩

end Tracing

/-- A cycle of the graph: a path along dependencies that ends where it starts. -/
def findCycle (g : DependencyGraph) : Option (List String) :=
  match g.keys.foldlM Tracing.searchFrom (⟨.empty, []⟩ : Tracing g) with
  | .ok _ => none
  | .error cycle => some cycle

/-! ## The schedule of a graph -/

def schedule (g : DependencyGraph) : Except (List String) (List String) :=
  match g.sort with
  | .ok order => .ok order
  | .error node => .error (g.findCycle.getD [node])

end DependencyGraph

def cycleText (path : List String) : String :=
  " -> ".intercalate path

def orderingMessage (node : String) : String :=
  "Dependency cycle through '" ++ node ++ "'"

end Parametric
