import Parametric.Proofs.Parameters.Cycle
/-! Depth-first search orders a graph, or finds a cycle.

The nodes on the stack are a path along dependencies, and the order is topological.
Each dependency of a node on the stack has not been looked at, or has been left, or is
the next node on the stack. Each step keeps this, and a step that fails closes a cycle
through the path. The two searches take the same steps, so they fail together.
-/

set_option autoImplicit false

namespace Parametric.DependencyGraph

variable {g : DependencyGraph}

def onStack (stack : List (Frame g)) : List String :=
  stack.map (·.node)

/-- Each dependency of a node on the stack has not been looked at, or is in the order, or is the
one that is looked at from there: the next node on the stack, or `seen` from the top. -/
def LookedAt (order : List String) : Option String → List (Frame g) → Prop
  | _, [] => True
  | seen, f :: outer =>
    (∀ d, g.Edge f.node d → d ∈ f.pending ∨ d ∈ order ∨ seen = some d) ∧
      LookedAt order (some f.node) outer

theorem LookedAt.mono {order more : List String} {seen next : Option String}
    {stack : List (Frame g)} (looked : LookedAt order seen stack) (grows : order ⊆ more)
    (settled : ∀ d, seen = some d → d ∈ more ∨ next = some d) : LookedAt more next stack := by
  induction stack generalizing seen next with
  | nil => trivial
  | cons f outer ih =>
    refine ⟨fun d edge => ?_, ih looked.2 fun d same => .inr same⟩
    rcases looked.1 d edge with pending | left | same
    · exact .inl pending
    · exact .inr (.inl (grows left))
    · exact .inr (settled d same)

def Marked (marks : Marks) (mark : Mark) (nodes : List String) : Prop :=
  ∀ node, marks.get? node = some mark ↔ node ∈ nodes

namespace Marked

variable {marks : Marks} {mark : Mark} {nodes : List String}

theorem not_mem (marked : Marked marks mark nodes) {node : String} {found : Option Mark}
    (look : marks.get? node = found) (differs : found ≠ some mark) : node ∉ nodes := by
  intro member
  exact differs (look.symm.trans ((marked node).mpr member))

theorem insert_same (marked : Marked marks mark nodes) (node : String) :
    Marked (marks.insert node mark) mark (node :: nodes) := by
  intro other
  rw [SortedMap.get?_insert, List.mem_cons]
  split
  · next same => simp [same]
  · next apart => simp [apart, marked other]

theorem insert_other {node : String} {others : List String} {now : Mark}
    (marked : Marked marks mark nodes) (differs : now ≠ mark) (outside : node ∉ others)
    (kept : ∀ n ≠ node, n ∈ nodes ↔ n ∈ others) : Marked (marks.insert node now) mark others := by
  intro other
  rw [SortedMap.get?_insert]
  split
  · next same => simp [same, differs, outside]
  · next apart => rw [marked other, kept other apart]

end Marked

namespace Sorting

/-- What holds at each step of the search that orders the nodes. The dependency `seen` is off the
pending ones and has not been dealt with. -/
structure Sound (s : Sorting g) (seen : Option String) : Prop where
  topological : g.Topological s.order
  path : g.Path (onStack s.stack)
  visiting : Marked s.marks .visiting (onStack s.stack)
  visited : Marked s.marks .visited s.order
  looked : LookedAt s.order seen s.stack

namespace Sound

variable {marks : Marks} {stack outer : List (Frame g)} {order pending : List String}
  {node d : String} {listed : d :: pending ⊆ g.dependencies node}

theorem start : Sound (⟨.empty, [], []⟩ : Sorting g) none :=
  ⟨.nil, .nil, fun _ => by simp [onStack], fun _ => by simp, trivial⟩

theorem leave {done : Frame g} (sound : Sound ⟨marks, done :: outer, order⟩ none)
    (finished : done.pending = []) :
    Sound ⟨marks.insert done.node .visited, outer, order ++ [done.node]⟩ none := by
  have onTop : marks.get? done.node = some .visiting := (sound.visiting _).mpr List.mem_cons_self
  have fresh : done.node ∉ order := sound.visited.not_mem onTop (by decide)
  have behind : done.node ∉ onStack outer := (List.nodup_cons.mp sound.path.distinct).1
  refine ⟨?_, sound.path.tail, ?_, ?_, ?_⟩
  · refine .snoc sound.topological (sound.path.present _ List.mem_cons_self) fresh fun d edge => ?_
    rcases sound.looked.1 d edge with pending | left | seen
    · rw [finished] at pending
      cases pending
    · exact left
    · cases seen
  · exact sound.visiting.insert_other (by decide) behind fun n apart => by simp [onStack, apart]
  · intro n
    rw [sound.visited.insert_same done.node n, List.mem_append, List.mem_cons, List.mem_singleton,
      or_comm]
  · refine sound.looked.2.mono (List.subset_append_left _ _) fun d seen => .inl ?_
    cases seen
    exact List.mem_append_right _ List.mem_cons_self

theorem look (sound : Sound ⟨marks, ⟨node, d :: pending, listed⟩ :: outer, order⟩ none) :
    Sound ⟨marks, ⟨node, pending, List.subset_of_cons_subset listed⟩ :: outer, order⟩ (some d) := by
  refine ⟨sound.topological, sound.path, sound.visiting, sound.visited, ?_, sound.looked.2⟩
  intro other edge
  rcases sound.looked.1 other edge with unseen | left | seen
  · rcases List.mem_cons.mp unseen with rfl | later
    · exact .inr (.inr rfl)
    · exact .inl later
  · exact .inr (.inl left)
  · cases seen

theorem pass {s : Sorting g} (sound : s.Sound (some d)) (visited : s.marks.get? d = some .visited) :
    s.Sound none := by
  have left := (sound.visited d).mp visited
  refine ⟨sound.topological, sound.path, sound.visiting, sound.visited, ?_⟩
  refine sound.looked.mono (List.Subset.refl _) fun other same => .inl ?_
  cases same
  exact left

theorem meet (sound : Sound ⟨marks, stack, order⟩ (some d)) (unmet : marks.get? d = none)
    (present : g.contains d = true) (reached : ∀ last ∈ (onStack stack).head?, g.Edge last d) :
    Sound ⟨marks.insert d .visiting, .enter g d :: stack, order⟩ none := by
  have offPath : d ∉ onStack stack := sound.visiting.not_mem unmet (by decide)
  have unordered : d ∉ order := sound.visited.not_mem unmet (by decide)
  exact ⟨sound.topological, sound.path.cons present offPath reached, sound.visiting.insert_same d,
    sound.visited.insert_other (by decide) unordered fun _ _ => Iff.rfl, fun _ own => .inl own,
    sound.looked⟩

theorem closes (sound : Sound ⟨marks, ⟨node, d :: pending, listed⟩ :: outer, order⟩ none)
    (met : marks.get? d = some .visiting) :
    g.CycleAt d (closedAt (stackPath (⟨node, d :: pending, listed⟩ :: outer)) d) := by
  refine sound.path.cycle ((sound.visiting d).mp met) fun last member => ?_
  cases member
  exact listed List.mem_cons_self

theorem step {s next : Sorting g} (sound : s.Sound none) (stepped : s.step = some (.ok next)) :
    next.Sound none := by
  cases moves_of_step stepped with
  | leave finished => exact sound.leave finished
  | pass listed visited => exact sound.look.pass visited
  | @enter marks node d pending order outer listed unmet =>
    have edge : g.Edge node d := listed List.mem_cons_self
    refine sound.look.meet unmet edge.present fun last member => ?_
    cases member
    exact edge

end Sound

theorem contains_step {s next : Sorting g} (stepped : s.step = some (.ok next)) {node : String}
    (met : s.marks.contains node = true) : next.marks.contains node = true := by
  cases moves_of_step stepped with
  | leave => exact SortedMap.contains_insert.mpr (.inr met)
  | pass => exact met
  | enter => exact SortedMap.contains_insert.mpr (.inr met)

theorem stack_eq_nil {s : Sorting g} (stops : s.step = none) : s.stack = [] := by
  obtain ⟨marks, _ | ⟨⟨node, _ | ⟨d, pending⟩, listed⟩, outer⟩, order⟩ := s
  · rfl
  · cases stops
  · simp only [step] at stops
    split at stops <;> cases stops

/-! ## Both searches in step -/

def trace (s : Sorting g) : Tracing g := ⟨s.marks, s.stack⟩

theorem trace_step {s next : Sorting g} (stepped : s.step = some (.ok next)) :
    s.trace.step = some (.ok next.trace) := by
  cases moves_of_step stepped with
  | @leave marks done outer order finished =>
    obtain ⟨node, pending, listed⟩ := done
    cases finished
    rfl
  | pass listed visited => simp only [trace, Tracing.step, visited]
  | enter listed unmet => simp only [trace, Tracing.step, unmet]

/-- A step that fails at a node fails on a cycle through it in the other search. -/
theorem Sound.trace_step_error {s : Sorting g} {node : String} (sound : s.Sound none)
    (stepped : s.step = some (.error node)) :
    ∃ cycle, s.trace.step = some (.error cycle) ∧ g.CycleAt node cycle := by
  obtain ⟨marks, _ | ⟨⟨top, _ | ⟨d, pending⟩, listed⟩, outer⟩, order⟩ := s
  · cases stepped
  · cases stepped
  · simp only [Sorting.step] at stepped
    split at stepped <;> cases stepped
    next met =>
    refine ⟨_, ?_, sound.closes met⟩
    simp only [trace, Tracing.step, met]
    rfl

end Sorting

/-- Both searches go on from one place, where they have met certain nodes, or both fail at one
cycle. -/
inductive InStep (met : String → Prop) :
    Except String (Sorting g) → Except (List String) (Tracing g) → Prop where
  | goes {s : Sorting g} (sound : s.Sound none) (left : s.stack = [])
      (marked : ∀ node, met node → s.marks.contains node = true) :
      InStep met (.ok s) (.ok s.trace)
  | fails {node : String} {cycle : List String} (closed : g.CycleAt node cycle) :
      InStep met (.error node) (.error cycle)

theorem InStep.mono {fewer met : String → Prop} {sorted : Except String (Sorting g)}
    {traced : Except (List String) (Tracing g)} (agree : InStep met sorted traced)
    (grows : ∀ node, fewer node → met node) : InStep fewer sorted traced := by
  cases agree with
  | goes sound left marked =>
    exact .goes sound left fun node there => marked node (grows node there)
  | fails closed => exact .fails closed

theorem Tracing.run_eq (s : Tracing g) : s.run = match s.step with
    | none => .ok s
    | some (.error cycle) => .error cycle
    | some (.ok next) => next.run := by
  rw [run]
  split <;> simp_all

namespace Sorting

theorem Sound.run {s : Sorting g} (sound : s.Sound none) :
    InStep (s.marks.contains · = true) s.run s.trace.run := by
  fun_induction Sorting.run s with
  | case1 s stops =>
    have left := stack_eq_nil stops
    have traced : s.trace.step = none := by simp only [trace, Tracing.step, left]
    rw [Tracing.run_eq, traced]
    exact .goes sound left fun _ met => met
  | case2 s node fails =>
    obtain ⟨cycle, traced, closed⟩ := sound.trace_step_error fails
    rw [Tracing.run_eq, traced]
    exact .fails closed
  | case3 s next stepped ih =>
    rw [Tracing.run_eq, trace_step stepped]
    exact (ih (sound.step stepped)).mono fun _ => contains_step stepped

theorem Sound.searchFrom {s : Sorting g} (sound : s.Sound none) (left : s.stack = [])
    {root : String} (present : g.contains root = true) :
    InStep (fun node => node = root ∨ s.marks.contains node = true) (s.searchFrom root)
      (s.trace.searchFrom root) := by
  obtain ⟨marks, stack, order⟩ := s
  cases left
  unfold Sorting.searchFrom Tracing.searchFrom
  by_cases met : marks.contains root = true
  · simp only [trace, met, if_true]
    refine .goes sound rfl ?_
    rintro node (rfl | before)
    · exact met
    · exact before
  · have unmet : marks.get? root = none := by
      simpa [SortedMap.contains] using met
    have seen : Sound ⟨marks, [], order⟩ (some root) :=
      ⟨sound.topological, sound.path, sound.visiting, sound.visited, trivial⟩
    simp only [trace, met, Bool.false_eq_true, if_false]
    refine (seen.meet unmet present (by simp [onStack])).run.mono fun node => ?_
    exact SortedMap.contains_insert.mpr

theorem Sound.searchAll {roots : List String} (present : ∀ root ∈ roots, g.contains root = true)
    {s : Sorting g} (sound : s.Sound none) (left : s.stack = []) :
    InStep (fun node => node ∈ roots ∨ s.marks.contains node = true)
      (roots.foldlM Sorting.searchFrom s) (roots.foldlM Tracing.searchFrom s.trace) := by
  induction roots generalizing s with
  | nil => exact .goes sound left (by simp)
  | cons root rest ih =>
    have first := sound.searchFrom left (present root List.mem_cons_self)
    rw [List.foldlM_cons, List.foldlM_cons]
    generalize s.searchFrom root = sorted at first
    generalize s.trace.searchFrom root = traced at first
    cases first with
    | fails closed => exact .fails closed
    | goes sound left marked =>
      have others := ih (fun n member => present n (List.mem_cons_of_mem _ member)) sound left
      refine others.mono fun node => ?_
      rintro (listed | before)
      · rcases List.mem_cons.mp listed with rfl | later
        · exact .inr (marked node (.inl rfl))
        · exact .inl later
      · exact .inr (marked node (.inr before))

end Sorting

/-! ## What the searches find -/

/-- Both searches come to the end, or fail at one cycle. -/
theorem sort_findCycle (g : DependencyGraph) :
    (∃ order, g.sort = .ok order ∧ g.findCycle = none ∧ g.Topological order ∧
        ∀ node, node ∈ order ↔ g.contains node = true) ∨
      ∃ node cycle, g.sort = .error node ∧ g.findCycle = some cycle ∧ g.CycleAt node cycle := by
  have agree := Sorting.Sound.searchAll (fun _ => SortedMap.mem_keys.mp)
    (Sorting.Sound.start (g := g)) rfl
  unfold sort findCycle
  generalize g.keys.foldlM Sorting.searchFrom _ = sorted at agree
  change InStep _ _ (g.keys.foldlM Tracing.searchFrom ⟨.empty, []⟩) at agree
  generalize g.keys.foldlM Tracing.searchFrom _ = traced at agree
  cases agree with
  | fails closed => exact .inr ⟨_, _, rfl, rfl, closed⟩
  | @goes s sound left marked =>
    refine .inl ⟨_, rfl, rfl, sound.topological, fun node => ⟨sound.topological.present, ?_⟩⟩
    intro present
    -- A mark on a node that is not on the stack says that the node has been left.
    obtain ⟨mark, found⟩ := SortedMap.contains_iff.mp
      (marked node (.inl (SortedMap.mem_keys.mpr present)))
    cases mark with
    | visiting =>
      have onStack := (sound.visiting node).mp found
      rw [left] at onStack
      cases onStack
    | visited => exact (sound.visited node).mp found

/-- An order that the search finds is topological and has every node. -/
theorem sort_topological {order : List String} (sorted : g.sort = .ok order) :
    g.Topological order ∧ ∀ node, node ∈ order ↔ g.contains node = true := by
  rcases g.sort_findCycle with ⟨_, found, -, topological, members⟩ | ⟨_, _, failed, -⟩
  · cases sorted.symm.trans found
    exact ⟨topological, members⟩
  · cases sorted.symm.trans failed

theorem sort_error {node : String} (failed : g.sort = .error node) :
    ∃ cycle, g.findCycle = some cycle ∧ g.CycleAt node cycle := by
  rcases g.sort_findCycle with ⟨_, found, -⟩ | ⟨_, cycle, other, traced, closed⟩
  · cases failed.symm.trans found
  · cases failed.symm.trans other
    exact ⟨cycle, traced, closed⟩

theorem acyclic_of_sort {order : List String} (sorted : g.sort = .ok order) : g.Acyclic := by
  obtain ⟨topological, members⟩ := sort_topological sorted
  intro node back
  obtain ⟨dependency, edge, _⟩ := Relation.TransGen.head'_iff.mp back
  exact topological.acyclic ((members node).mpr edge.node_present) back

theorem sort_of_acyclic (acyclic : g.Acyclic) : ∃ order, g.sort = .ok order := by
  cases sorted : g.sort with
  | ok order => exact ⟨order, rfl⟩
  | error node =>
    obtain ⟨cycle, _, closed⟩ := sort_error sorted
    exact absurd closed.transGen (acyclic node)

/-! ## The schedule of a graph -/

theorem schedule_of_sort {order : List String} (sorted : g.sort = .ok order) :
    g.schedule = .ok order := by
  rw [schedule, sorted]

theorem schedule_of_findCycle {cycle : List String} (found : g.findCycle = some cycle) :
    g.schedule = .error cycle := by
  rcases g.sort_findCycle with ⟨_, _, none, -⟩ | ⟨_, _, failed, traced, -⟩
  · cases found.symm.trans none
  · cases found.symm.trans traced
    rw [schedule, failed, traced]
    rfl

theorem schedule_topological {order : List String} (scheduled : g.schedule = .ok order) :
    g.Topological order ∧ ∀ node, node ∈ order ↔ g.contains node = true := by
  cases sorted : g.sort with
  | ok other =>
    cases scheduled.symm.trans (schedule_of_sort sorted)
    exact sort_topological sorted
  | error node =>
    obtain ⟨cycle, found, _⟩ := sort_error sorted
    cases scheduled.symm.trans (schedule_of_findCycle found)

theorem schedule_cycle {cycle : List String} (failed : g.schedule = .error cycle) :
    g.Cycle cycle := by
  cases sorted : g.sort with
  | ok order => cases failed.symm.trans (schedule_of_sort sorted)
  | error node =>
    obtain ⟨other, found, closed⟩ := sort_error sorted
    cases failed.symm.trans (schedule_of_findCycle found)
    exact ⟨node, closed⟩

theorem schedule_of_acyclic (acyclic : g.Acyclic) : ∃ order, g.schedule = .ok order := by
  obtain ⟨order, sorted⟩ := sort_of_acyclic acyclic
  exact ⟨order, schedule_of_sort sorted⟩

/-- Exactly the graphs without cycles have a schedule. -/
theorem acyclic_iff : g.Acyclic ↔ g.schedule.isOk = true := by
  constructor
  · intro acyclic
    obtain ⟨order, scheduled⟩ := schedule_of_acyclic acyclic
    rw [scheduled]
    rfl
  · intro succeeds
    cases sorted : g.sort with
    | ok order => exact acyclic_of_sort sorted
    | error node =>
      obtain ⟨cycle, found, _⟩ := sort_error sorted
      rw [schedule_of_findCycle found] at succeeds
      cases succeeds

instance : Decidable g.Acyclic :=
  decidable_of_iff _ acyclic_iff.symm

/-! ## The order of a graph -/

/-- The search ends from any state. It orders exactly the graphs without cycles: each node once,
after the nodes it depends on. It fails at a node that depends on itself. -/
theorem sort_orders_acyclic (g : DependencyGraph) :
    (WellFounded fun after before : Sorting g => before.step = some (.ok after)) ∧
      ((∃ order, g.sort = .ok order) ↔ g.Acyclic) ∧
      (∀ order, g.sort = .ok order →
        order.Nodup ∧ (∀ node, node ∈ order ↔ g.contains node = true) ∧
          ∀ node d, g.Edge node d → order.idxOf d < order.idxOf node) ∧
      ∀ node, g.sort = .error node →
        g.contains node = true ∧ Relation.TransGen g.Edge node node := by
  refine ⟨?_, ⟨fun ⟨_, sorted⟩ => acyclic_of_sort sorted, sort_of_acyclic⟩, ?_, ?_⟩
  · exact Subrelation.wf Sorting.work_step (measure Sorting.work).wf
  · intro order sorted
    obtain ⟨topological, members⟩ := sort_topological sorted
    refine ⟨topological.nodup, members, fun node d edge => ?_⟩
    exact topological.idxOf_lt ((members node).mpr edge.node_present) edge
  · intro node failed
    obtain ⟨cycle, _, closed⟩ := sort_error failed
    have back := closed.transGen
    obtain ⟨d, edge, _⟩ := Relation.TransGen.head'_iff.mp back
    exact ⟨edge.node_present, back⟩

def diamond : DependencyGraph :=
  .ofEdges [("a", []), ("b", ["a"]), ("c", ["a", "missing"]), ("d", ["b", "c"])]

def ring : DependencyGraph :=
  .ofEdges [("a", ["y"]), ("x", ["y"]), ("y", ["x"]), ("z", [])]

theorem sort_orders_acyclic_diamond :
    diamond.sort = .ok ["a", "b", "c", "d"] ∧ diamond.Acyclic ∧
      (∀ node d, diamond.Edge node d →
        ["a", "b", "c", "d"].idxOf d < ["a", "b", "c", "d"].idxOf node) ∧
      ring.sort = .error "y" ∧ ¬ ring.Acyclic ∧ Relation.TransGen ring.Edge "y" "y" := by
  obtain ⟨_, acyclic, ordered, _⟩ := sort_orders_acyclic diamond
  obtain ⟨_, _, _, cyclic⟩ := sort_orders_acyclic ring
  have sorted : diamond.sort = .ok ["a", "b", "c", "d"] := by decide +kernel
  have failed : ring.sort = .error "y" := by decide +kernel
  have back := (cyclic "y" failed).2
  exact ⟨sorted, acyclic.mp ⟨_, sorted⟩, (ordered _ sorted).2.2, failed, fun none => none _ back,
    back⟩

end Parametric.DependencyGraph
