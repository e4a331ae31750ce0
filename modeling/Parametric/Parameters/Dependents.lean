import Parametric.Parameters.Graph
/-! The nodes of a graph that depend on a name, directly or through others.

The graph is turned around, so that each name leads to the nodes that list it. The
search then spreads from the name: a queue holds the nodes that have been found and
whose own dependents have not been looked up.
-/

set_option autoImplicit false

namespace Parametric.DependencyGraph

def reversed (g : DependencyGraph) : SortedMap String (List String) :=
  g.entries.foldl (fun users entry => entry.2.foldl (addUser entry.1) users) .empty
where
  addUser (node : String) (users : SortedMap String (List String)) (d : String) :
      SortedMap String (List String) :=
    users.insert d ((users.get? d).getD [] ++ [node])

structure Spread where
  found : SortedMap String Unit
  queue : List String

namespace Spread

variable {users : SortedMap String (List String)} {name : String}

/-- A node that was not found before waits in the queue; the name itself does not count. -/
def meet (name : String) (s : Spread) (node : String) : Spread :=
  if node ≠ name ∧ s.found.contains node = false then
    ⟨s.found.insert node (), s.queue ++ [node]⟩
  else s

def step (users : SortedMap String (List String)) (name : String) (s : Spread) : Option Spread :=
  match s.queue with
  | [] => none
  | current :: rest => some (((users.get? current).getD []).foldl (meet name) ⟨s.found, rest⟩)

def work (users : SortedMap String (List String)) (s : Spread) : Nat :=
  unmet s.found (fun _ => 1) users.values.flatten + s.queue.length

theorem work_foldl_meet {nodes : List String} (name : String) (s : Spread)
    (listed : nodes ⊆ users.values.flatten) :
    (nodes.foldl (meet name) s).work users ≤ s.work users := by
  induction nodes generalizing s with
  | nil => exact Nat.le_refl _
  | cons node rest ih =>
    refine Nat.le_trans (ih _ (List.subset_of_cons_subset listed)) ?_
    unfold meet
    split
    · next fresh =>
      have fewer := unmet_insert s.found node () (fun _ => 1) (listed List.mem_cons_self) fresh.2
      simp only [work, List.length_append, List.length_singleton]
      omega
    · exact Nat.le_refl _

theorem work_step {s next : Spread} (stepped : s.step users name = some next) :
    next.work users < s.work users := by
  obtain ⟨found, _ | ⟨current, rest⟩⟩ := s
  · cases stepped
  · cases stepped
    have listed : (users.get? current).getD [] ⊆ users.values.flatten := by
      intro node member
      cases at_current : users.get? current with
      | none => simp [at_current] at member
      | some nodes =>
        rw [at_current] at member
        exact List.mem_flatten_of_mem
          (List.mem_map_of_mem (SortedMap.mem_of_find at_current)) member
    have fewer := work_foldl_meet name ⟨found, rest⟩ listed
    simp only [work, List.length_cons] at fewer ⊢
    omega

def run (users : SortedMap String (List String)) (name : String) (s : Spread) : Spread :=
  match _ : s.step users name with
  | none => s
  | some next => run users name next
termination_by s.work users
decreasing_by exact work_step ‹_›

end Spread

/-- The other nodes that depend on `name` through any number of nodes, in increasing order. -/
def dependents (g : DependencyGraph) (name : String) : List String :=
  (Spread.run g.reversed name ⟨.empty, [name]⟩).found.keys

end Parametric.DependencyGraph
