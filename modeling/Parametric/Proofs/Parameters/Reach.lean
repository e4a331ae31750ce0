import Parametric.Proofs.Parameters.Evaluation
/-! The dependents of a name are the nodes that reach it.

The search has found only nodes that reach the name. A name that is found and no longer
in the queue has had all its users found. When the queue is empty this holds of every
name that was found, so a chain of dependencies that leads to the name is followed back
to its start, also through the name itself.
-/

set_option autoImplicit false

namespace Parametric

namespace DependencyGraph

variable {g : DependencyGraph} {name node d : String}

/-- A node lists a name among those it depends on; the name may be no node. -/
def Mentions (g : DependencyGraph) (node d : String) : Prop :=
  d ∈ (g.get? node).getD []

theorem Edge.mentions (edge : g.Edge node d) : g.Mentions node d :=
  (List.mem_filter.mp edge).1

theorem Mentions.node_present (mentions : g.Mentions node d) : g.contains node = true := by
  cases found : g.get? node with
  | none => simp [Mentions, found] at mentions
  | some names => exact SortedMap.contains_of_get? found

/-! ## The graph turned around -/

theorem mem_addUser {users : SortedMap String (List String)} {user other : String} :
    user ∈ ((reversed.addUser node users d).get? other).getD [] ↔
      user ∈ (users.get? other).getD [] ∨ user = node ∧ other = d := by
  rw [reversed.addUser, SortedMap.get?_insert]
  split
  · next same => simp [same]
  · next apart => simp [apart]

theorem mem_foldl_addUser {deps : List String} {users : SortedMap String (List String)}
    {user other : String} :
    user ∈ ((deps.foldl (reversed.addUser node) users).get? other).getD [] ↔
      user ∈ (users.get? other).getD [] ∨ user = node ∧ other ∈ deps := by
  induction deps generalizing users with
  | nil => simp
  | cons d rest ih =>
    rw [List.foldl_cons, ih, mem_addUser, List.mem_cons]
    tauto

theorem mem_foldl_entries {entries : List (String × List String)}
    {users : SortedMap String (List String)} :
    node ∈ ((entries.foldl (fun users entry =>
        entry.2.foldl (reversed.addUser entry.1) users) users).get? d).getD [] ↔
      node ∈ (users.get? d).getD [] ∨ ∃ deps, (node, deps) ∈ entries ∧ d ∈ deps := by
  induction entries generalizing users with
  | nil => simp
  | cons entry rest ih =>
    obtain ⟨first, deps⟩ := entry
    rw [List.foldl_cons, ih, mem_foldl_addUser, or_assoc]
    refine or_congr Iff.rfl ?_
    simp only [List.mem_cons, Prod.mk.injEq]
    constructor
    · rintro (⟨rfl, listed⟩ | ⟨others, later, listed⟩)
      · exact ⟨deps, .inl ⟨rfl, rfl⟩, listed⟩
      · exact ⟨others, .inr later, listed⟩
    · rintro ⟨others, ⟨rfl, rfl⟩ | later, listed⟩
      · exact .inl ⟨rfl, listed⟩
      · exact .inr ⟨others, later, listed⟩

theorem mem_reversed : node ∈ (g.reversed.get? d).getD [] ↔ g.Mentions node d := by
  rw [reversed, mem_foldl_entries, Mentions]
  simp only [SortedMap.get?_empty, Option.getD_none, List.not_mem_nil, false_or,
    SortedMap.mem_entries]
  cases g.get? node <;> simp

/-! ## The search for dependents -/

namespace Spread

theorem contains_foldl_meet {nodes : List String} {s : Spread} :
    (nodes.foldl (meet name) s).found.contains node = true ↔
      s.found.contains node = true ∨ node ∈ nodes ∧ node ≠ name := by
  induction nodes generalizing s with
  | nil => simp
  | cons first rest ih =>
    rw [List.foldl_cons, ih, List.mem_cons, meet]
    split
    · next fresh =>
      rw [SortedMap.contains_insert]
      grind
    · next known => grind

theorem mem_queue_foldl_meet {nodes : List String} {s : Spread} :
    node ∈ (nodes.foldl (meet name) s).queue ↔
      node ∈ s.queue ∨ node ∈ nodes ∧ node ≠ name ∧ s.found.contains node = false := by
  induction nodes generalizing s with
  | nil => simp
  | cons first rest ih =>
    rw [List.foldl_cons, ih, List.mem_cons, meet]
    split
    · next fresh =>
      by_cases same : node = first
      · subst same
        simp [fresh]
      · simp [same, SortedMap.contains_insert_of_ne]
    · next known => grind

/-- The name and the nodes that have been found. -/
def Known (name : String) (s : Spread) (node : String) : Prop :=
  node = name ∨ s.found.contains node = true

/-- What holds at each step of the search. -/
structure Sound (g : DependencyGraph) (name : String) (s : Spread) : Prop where
  reaches : ∀ node, s.found.contains node = true →
    node ≠ name ∧ Relation.TransGen g.Mentions node name
  queued : ∀ node ∈ s.queue, Known name s node
  closed : ∀ d, Known name s d → d ∈ s.queue ∨ ∀ node, g.Mentions node d → Known name s node

theorem Sound.start : Sound g name ⟨.empty, [name]⟩ := by
  have nothing : ∀ node, ¬ (SortedMap.empty : SortedMap String Unit).contains node = true := by
    simp [SortedMap.contains]
  refine ⟨fun node found => absurd found (nothing node), fun node member => ?_, fun d known => ?_⟩
  · exact .inl (List.mem_singleton.mp member)
  · rcases known with rfl | found
    · exact .inl List.mem_cons_self
    · exact absurd found (nothing d)

theorem Sound.reaches_of_mentions {s : Spread} (sound : s.Sound g name) (known : Known name s d)
    (mentions : g.Mentions node d) : Relation.TransGen g.Mentions node name := by
  rcases known with rfl | found
  · exact .single mentions
  · exact .head mentions (sound.reaches d found).2

theorem Sound.step {s next : Spread} (sound : s.Sound g name)
    (stepped : s.step g.reversed name = some next) : next.Sound g name := by
  obtain ⟨found, _ | ⟨current, rest⟩⟩ := s
  · cases stepped
  · cases stepped
    have known := sound.queued current List.mem_cons_self
    refine ⟨fun node now => ?_, fun node waits => ?_, fun d now => ?_⟩
    · rcases contains_foldl_meet.mp now with before | ⟨uses, apart⟩
      · exact sound.reaches node before
      · exact ⟨apart, sound.reaches_of_mentions known (mem_reversed.mp uses)⟩
    · rcases mem_queue_foldl_meet.mp waits with before | ⟨uses, apart, -⟩
      · exact (sound.queued node (List.mem_cons_of_mem _ before)).imp_right fun found =>
          contains_foldl_meet.mpr (.inl found)
      · exact .inr (contains_foldl_meet.mpr (.inr ⟨uses, apart⟩))
    · by_cases first : d = current
      · -- All users of the first name in the queue are known from now on.
        subst first
        refine .inr fun node mentions => ?_
        by_cases same : node = name
        · exact .inl same
        · exact .inr (contains_foldl_meet.mpr (.inr ⟨mem_reversed.mpr mentions, same⟩))
      · by_cases before : Known name ⟨found, current :: rest⟩ d
        · rcases sound.closed d before with waits | done
          · have later := (List.mem_cons.mp waits).resolve_left first
            exact .inl (mem_queue_foldl_meet.mpr (.inl later))
          · exact .inr fun node mentions => (done node mentions).imp_right fun found =>
              contains_foldl_meet.mpr (.inl found)
        · -- A name that was found in this step waits behind the others.
          obtain ⟨apart, missing⟩ := not_or.mp before
          have uses := (contains_foldl_meet.mp (now.resolve_left apart)).resolve_left missing
          exact .inl (mem_queue_foldl_meet.mpr (.inr ⟨uses.1, apart, by simpa using missing⟩))

theorem Sound.run {s : Spread} (sound : s.Sound g name) :
    (run g.reversed name s).Sound g name ∧ (run g.reversed name s).queue = [] := by
  fun_induction Spread.run g.reversed name s with
  | case1 s stops =>
    refine ⟨sound, ?_⟩
    obtain ⟨found, _ | ⟨current, rest⟩⟩ := s
    · rfl
    · cases stops
  | case2 s next stepped ih => exact ih (sound.step stepped)

/-- With an empty queue every node that reaches the name is known. -/
theorem Sound.known_of_reaches {s : Spread} (sound : s.Sound g name) (empty : s.queue = [])
    (reaches : Relation.TransGen g.Mentions node name) : Known name s node := by
  have closed : ∀ d, Known name s d → ∀ node, g.Mentions node d → Known name s node := by
    intro d known
    refine (sound.closed d known).resolve_left fun waits => ?_
    rw [empty] at waits
    cases waits
  induction reaches using Relation.TransGen.head_induction_on with
  | single mentions => exact closed name (.inl rfl) _ mentions
  | head mentions _ ih => exact closed _ ih _ mentions

end Spread

theorem mem_dependents :
    node ∈ g.dependents name ↔ node ≠ name ∧ Relation.TransGen g.Mentions node name := by
  obtain ⟨sound, empty⟩ := (Spread.Sound.start (g := g)).run
  rw [dependents, SortedMap.mem_keys]
  constructor
  · exact sound.reaches node
  · rintro ⟨apart, reaches⟩
    exact (sound.known_of_reaches empty reaches).resolve_left apart

theorem dependents_nodup (g : DependencyGraph) (name : String) : (g.dependents name).Nodup :=
  SortedMap.keys_nodup _

theorem mem_dependents_of_edge (edge : g.Edge node d) (other : node ≠ name)
    (reaches : d = name ∨ d ∈ g.dependents name) : node ∈ g.dependents name := by
  refine mem_dependents.mpr ⟨other, ?_⟩
  rcases reaches with rfl | dependent
  · exact .single edge.mentions
  · exact .head edge.mentions (mem_dependents.mp dependent).2

theorem contains_of_mem_dependents (member : node ∈ g.dependents name) :
    g.contains node = true := by
  obtain ⟨d, mentions, _⟩ := Relation.TransGen.head'_iff.mp (mem_dependents.mp member).2
  exact mentions.node_present

end DependencyGraph

namespace Parameters

open DependencyGraph

theorem mentions_graph {list : List Parameter} : (graph list).Mentions = (graph list).Edge := by
  funext node d
  refine propext ⟨fun mentions => List.mem_filter.mpr ⟨mentions, ?_⟩, Edge.mentions⟩
  cases found : (graph list).get? node with
  | none => simp [Mentions, found] at mentions
  | some names =>
    obtain ⟨p, _, same⟩ := List.mem_map.mp (SortedMap.mem_of_get?_ofList found)
    obtain ⟨-, rfl⟩ := Prod.mk.inj same
    rw [Mentions, found] at mentions
    exact contains_graph.mpr (Parameter.mem_needs.mp mentions).1

/-- The dependents of a name are the other parameters from which a chain of direct dependencies
leads to it. The search for them ends in any state. -/
theorem mem_dependents_iff_chain (params : Parameters) (name : String) :
    (WellFounded fun after before : Spread =>
        before.step (graph params.list).reversed name = some after) ∧
      (params.dependents name).Nodup ∧
      ∀ node, node ∈ params.dependents name ↔
        node ∈ params.list.map (·.name) ∧ node ≠ name ∧
          Relation.TransGen (graph params.list).Edge node name := by
  refine ⟨Subrelation.wf Spread.work_step (measure _).wf, dependents_nodup _ name, fun node => ?_⟩
  rw [dependents, mem_dependents, mentions_graph]
  refine ⟨fun ⟨apart, chain⟩ => ⟨?_, apart, chain⟩, And.right⟩
  obtain ⟨d, edge, _⟩ := Relation.TransGen.head'_iff.mp chain
  exact contains_graph.mp edge.node_present

end Parameters

end Parametric
