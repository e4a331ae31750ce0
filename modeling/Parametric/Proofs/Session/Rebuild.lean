import Parametric.Proofs.Feature.Rebuild
import Parametric.Proofs.Session.Links
/-! Rebuilds of the studios that a session reaches.

Each input that is present stands earlier in the order than the feature that
needs it, so one pass over the plan is enough: what it builds is closed under
all the features that are needed, however far away.
-/

set_option autoImplicit false

namespace Parametric

theorem Node.mem_inputs {node : Node} {id : OpId} :
    id ∈ node.inputs ↔ id ∈ node.dependencies ∨ id ∈ node.op.feature.references := by
  unfold Node.inputs
  generalize node.dependencies = inputs
  induction node.op.feature.references generalizing inputs with
  | nil => simp
  | cons first rest ih =>
    rw [List.foldl_cons, ih]
    split
    · next known =>
      constructor
      · exact Or.imp_right (List.mem_cons_of_mem _)
      · rintro (old | new)
        · exact .inl old
        · rcases List.mem_cons.mp new with rfl | later
          · exact .inl known
          · exact .inr later
    · simp [or_assoc]

theorem Node.inputs_eq {node : Node}
    (recorded : ∀ id ∈ node.op.feature.references, id ∈ node.dependencies) :
    node.inputs = node.dependencies := by
  unfold Node.inputs
  revert recorded
  generalize node.op.feature.references = references
  intro recorded
  induction references with
  | nil => rfl
  | cons first rest ih =>
    rw [List.foldl_cons, if_pos (recorded first List.mem_cons_self)]
    exact ih fun id member => recorded id (List.mem_cons_of_mem _ member)

namespace Studio

/-- A feature is there and not suppressed. -/
def isActive (s : Studio) (id : OpId) : Bool :=
  (s.nodes.get? id).any fun node => !node.op.suppressed

/-- The features that a rebuild is about: those before the cutoff that are not suppressed. -/
def visible (s : Studio) : List OpId :=
  (s.order.take s.effectiveLength).filter s.isActive

/-- A feature needs the shape of another. -/
def Needs (s : Studio) (id input : OpId) : Prop :=
  ∃ node, s.nodes.get? id = some node ∧ input ∈ node.inputs

section

variable {mentioned : List AnyId} {s : Studio}

theorem isActive_iff {id : OpId} :
    s.isActive id = true ↔ ∃ node, s.nodes.get? id = some node ∧ node.op.suppressed = false := by
  simp [isActive, Option.any_eq_true]

theorem contains_of_isActive {id : OpId} (active : s.isActive id = true) :
    s.contains id = true := by
  obtain ⟨node, found, _⟩ := isActive_iff.mp active
  exact SortedMap.contains_of_get? found

theorem WellFormed.visible_nodup (wellFormed : s.WellFormed) : s.visible.Nodup :=
  (wellFormed.distinct.sublist (List.take_sublist _ _)).filter _

theorem Linked.visible_nodup (linked : s.Linked mentioned) : s.visible.Nodup :=
  linked.tree.toWellFormed.visible_nodup

theorem Linked.mem_dependencies (linked : s.Linked mentioned) {id : OpId} {node : Node}
    (found : s.nodes.get? id = some node) {d : OpId} (named : d ∈ s.named node.op.feature)
    (present : s.contains d = true) : d ∈ node.dependencies := by
  have member : d ∈ (s.named node.op.feature).filter s.contains :=
    List.mem_filter.mpr ⟨named, present⟩
  rw [← linked.recorded id node found] at member
  exact (List.mem_filter.mp member).1

theorem mem_named_of_reference {feature : Feature} {d : OpId} (member : d ∈ feature.references) :
    d ∈ s.named feature := by
  unfold named
  split
  · next profile =>
    cases feature <;> cases profile <;> cases member
  · exact List.mem_eraseDups.mpr member

theorem Linked.named_subset_inputs (linked : s.Linked mentioned) {id : OpId} {node : Node}
    (found : s.nodes.get? id = some node) {d : OpId} (member : d ∈ s.named node.op.feature) :
    d ∈ node.inputs := by
  rw [Node.mem_inputs]
  cases profile : node.op.feature.profile? with
  | none =>
    right
    simpa [named, profile] using member
  | some profile' =>
    cases profile' with
    | face face =>
      right
      simpa [named, profile] using member
    | sketch sketch =>
      left
      refine linked.mem_dependencies found member ?_
      have owner : s.sketchOp? sketch = some d := by simpa [named, profile] using member
      exact sketchOp?_present linked.tree.toWellFormed owner

/-- Inputs that are all present are what the fields name, in the order of the fields. -/
theorem Linked.inputs_eq_named (linked : s.Linked mentioned) {id : OpId} {node : Node}
    (found : s.nodes.get? id = some node)
    (present : ∀ d ∈ node.inputs, s.contains d = true) :
    node.inputs = s.named node.op.feature := by
  have same : node.inputs = node.dependencies := by
    refine Node.inputs_eq fun d member => ?_
    exact linked.mem_dependencies found (mem_named_of_reference member)
      (present d (Node.mem_inputs.mpr (.inr member)))
  have dependencies : node.dependencies.filter s.contains = node.dependencies :=
    List.filter_eq_self.mpr fun d member => present d (same ▸ member)
  have names : (s.named node.op.feature).filter s.contains = s.named node.op.feature :=
    List.filter_eq_self.mpr fun d member =>
      present d (linked.named_subset_inputs found member)
  rw [same, ← dependencies, linked.recorded id node found, names]

theorem pair_sublist_take {order : List OpId} (distinct : order.Nodup) {a b : OpId}
    (pair : [a, b].Sublist order) {n : Nat} (taken : b ∈ order.take n) :
    [a, b].Sublist (order.take n) := by
  rw [← List.take_append_drop n order] at distinct pair
  obtain ⟨first, second, split, inTake, inDrop⟩ := List.sublist_append_iff.mp pair
  rcases List.eq_nil_or_concat second with rfl | ⟨rest, last, rfl⟩
  · rwa [split, List.append_nil]
  · rw [List.concat_eq_append, ← List.append_assoc] at split
    cases (List.append_inj' (show [a] ++ [b] = (first ++ rest) ++ [last] from split) rfl).2
    have dropped : b ∈ order.drop n := inDrop.subset (by simp)
    exact absurd rfl ((List.nodup_append.mp distinct).2.2 b taken b dropped)

theorem Linked.needs_before (linked : s.Linked mentioned) {before after : List OpId} {id d : OpId}
    (split : s.visible = before ++ id :: after) (needs : s.Needs id d)
    (active : s.isActive d = true) : d ∈ before := by
  obtain ⟨node, found, member⟩ := needs
  have present := contains_of_isActive active
  have dependency : d ∈ node.dependencies := by
    rcases Node.mem_inputs.mp member with recorded | reference
    · exact recorded
    · exact linked.mem_dependencies found (mem_named_of_reference reference) present
  have inOrder : [d, id].Sublist s.order :=
    linked.tree.dependencies_before id d ⟨present, node, found, dependency⟩
  have planned : id ∈ s.visible := by rw [split]; exact List.mem_append_cons_self
  obtain ⟨taken, itself⟩ := List.mem_filter.mp planned
  have inTaken := pair_sublist_take linked.tree.distinct inOrder taken
  have inVisible : [d, id].Sublist (before ++ id :: after) := by
    rw [← split]
    simpa [visible, active, itself] using inTaken.filter s.isActive
  have distinct : (before ++ id :: after).Nodup := split ▸ linked.visible_nodup
  have lower := WellFormed.idxOf_lt_of_sublist distinct inVisible
  have absent : id ∉ before := fun member =>
    (List.nodup_append.mp distinct).2.2 id member id List.mem_cons_self rfl
  by_contra notBefore
  rw [List.idxOf_append_of_notMem absent, List.idxOf_append_of_notMem notBefore,
    List.idxOf_cons_self] at lower
  omega

theorem WellFormed.planNode_isSome (wellFormed : s.WellFormed)
    (owned : ∀ id sketch, s.Owns id sketch → s.sketches.contains sketch = true)
    (params : Parameters) {id : OpId} {node : Node} (found : s.nodes.get? id = some node) :
    ∃ op, s.planNode? params node = some op ∧ op.id = id ∧ op.inputs = node.inputs := by
  have planned : ∃ feature, s.planFeature? params node.op.feature = some feature := by
    cases is : node.op.feature with
    | sketch sketch plane =>
      have there := owned id sketch ⟨node, found, by rw [is]; rfl⟩
      obtain ⟨sketch, there⟩ := SortedMap.contains_iff.mp there
      simp [planFeature?, there]
    | _ => exact ⟨_, rfl⟩
  obtain ⟨feature, planned⟩ := planned
  refine ⟨_, by rw [planNode?, planned]; rfl, wellFormed.ids id node found, rfl⟩

theorem WellFormed.plan_ids (wellFormed : s.WellFormed)
    (owned : ∀ id sketch, s.Owns id sketch → s.sketches.contains sketch = true)
    (params : Parameters) : (s.plan params).map (·.id) = s.visible := by
  have listed : ∀ ids : List OpId, (∀ id ∈ ids, s.contains id = true) →
      (((ids.filterMap s.nodes.get?).filter fun node => !node.op.suppressed).filterMap
        (s.planNode? params)).map (·.id) = ids.filter s.isActive := by
    intro ids present
    induction ids with
    | nil => rfl
    | cons id rest ih =>
      obtain ⟨node, found⟩ := SortedMap.contains_iff.mp (present id List.mem_cons_self)
      obtain ⟨op, planned, same, _⟩ := wellFormed.planNode_isSome owned params found
      have tail := ih fun other member => present other (List.mem_cons_of_mem _ member)
      cases suppressed : node.op.suppressed with
      | false => simpa [found, suppressed, planned, same, isActive] using tail
      | true => simpa [found, suppressed, isActive] using tail
  exact listed _ fun id member => wellFormed.mem_order.mp (List.mem_of_mem_take member)

theorem Linked.plan_ids (linked : s.Linked mentioned) (params : Parameters) :
    (s.plan params).map (·.id) = s.visible :=
  linked.tree.toWellFormed.plan_ids linked.owned_present params

theorem Linked.mem_plan (linked : s.Linked mentioned) {params : Parameters} {op : PlannedOp}
    (member : op ∈ s.plan params) :
    ∃ node, s.nodes.get? op.id = some node ∧ op.inputs = node.inputs := by
  obtain ⟨node, visible, planned⟩ := List.mem_filterMap.mp member
  obtain ⟨id, _, found⟩ := List.mem_filterMap.mp (List.mem_filter.mp visible).1
  obtain ⟨op', planned', rfl, inputs⟩ :=
    linked.tree.toWellFormed.planNode_isSome linked.owned_present params found
  rw [planned] at planned'
  cases planned'
  exact ⟨node, found, inputs⟩

end

/-! ## Dependents of what is suppressed or deleted -/

section

variable {mentioned : List AnyId} {s : Studio} {params : Parameters} {σ : Type}
  {kernel : Kernel σ}

/-- A feature and all it needs are there and not suppressed. -/
def Intact (s : Studio) (id : OpId) : Prop :=
  ∀ x, Relation.ReflTransGen s.Needs id x → s.isActive x = true

theorem Intact.active {id : OpId} (intact : s.Intact id) : s.isActive id = true :=
  intact id .refl

theorem intact_iff {id : OpId} {node : Node} (found : s.nodes.get? id = some node)
    (active : s.isActive id = true) : s.Intact id ↔ ∀ input ∈ node.inputs, s.Intact input := by
  constructor
  · intro intact input member x reached
    exact intact x (reached.head ⟨node, found, member⟩)
  · intro inputs x reached
    rcases reached.cases_head with rfl | ⟨input, ⟨other, lookup, member⟩, reached⟩
    · exact active
    · rw [found] at lookup
      cases lookup
      exact inputs input member x reached

/-- A feature is built if it is intact, as soon as those before it are. -/
theorem Linked.built_of_before (linked : s.Linked mentioned)
    (succeeds : ∀ op inputs state, ∃ shape, ((kernel.build op inputs).run state).1 = .ok shape)
    {shapes : SortedMap OpId BuiltShape} {before after : List PlannedOp} {op : PlannedOp}
    (split : s.plan params = before ++ op :: after)
    (earlier : ∀ d, shapes.contains d = true ↔ d ∈ before.map (·.id) ∧ s.Intact d) (state : σ) :
    (∃ shape, ((buildOne kernel shapes op).run state).1 = .ok shape) ↔ s.Intact op.id := by
  have member : op ∈ s.plan params := by rw [split]; exact List.mem_append_cons_self
  obtain ⟨node, found, inputs⟩ := linked.mem_plan member
  have order : s.visible = before.map (·.id) ++ op.id :: after.map (·.id) := by
    rw [← linked.plan_ids params, split, List.map_append, List.map_cons]
  have active : s.isActive op.id = true := by
    have planned : op.id ∈ s.visible := by rw [order]; exact List.mem_append_cons_self
    exact (List.mem_filter.mp planned).2
  rw [buildOne_succeeds succeeds, intact_iff found active, inputs]
  refine forall₂_congr fun input member => ?_
  rw [earlier]
  constructor
  · exact And.right
  · intro intact
    exact ⟨linked.needs_before order ⟨node, found, member⟩ intact.active, intact⟩

theorem Linked.contains_shapes (linked : s.Linked mentioned)
    (succeeds : ∀ op inputs state, ∃ shape, ((kernel.build op inputs).run state).1 = .ok shape)
    (state : σ) {before after : List PlannedOp} (split : s.plan params = before ++ after)
    (d : OpId) : (gather .empty ((rebuild kernel before).run state).1.results).contains d = true ↔
      d ∈ before.map (·.id) ∧ s.Intact d := by
  induction before using List.reverseRecOn generalizing after d with
  | nil =>
    have none_yet : (gather .empty ((rebuild kernel []).run state).1.results).contains d = false :=
      rfl
    simp [none_yet]
  | append_singleton before op ih =>
    rw [List.append_assoc, List.singleton_append] at split
    have built := linked.built_of_before succeeds split (fun d => ih split d)
      ((rebuild kernel before).run state).2
    rw [rebuild_concat, contains_gather_concat, ih split, built]
    constructor
    · rintro (⟨rfl, intact⟩ | ⟨member, intact⟩)
      · exact ⟨by simp, intact⟩
      · exact ⟨by simp [member], intact⟩
    · rintro ⟨member, intact⟩
      rw [List.map_append, List.mem_append] at member
      rcases member with earlier | last
      · exact .inr ⟨earlier, intact⟩
      · cases List.mem_singleton.mp last
        exact .inl ⟨rfl, intact⟩

end

end Studio

/-! ## What a kernel is given -/

namespace Studio

section

variable {mentioned : List AnyId} {s : Studio} {params : Parameters} {σ : Type}

/-- The profile of a feature is a sketch that no feature of the studio owns. -/
def Ownerless (s : Studio) (feature : Feature) : Prop :=
  ∃ sketch, feature.profile? = some (.sketch sketch) ∧ s.sketchOp? sketch = none

theorem inputs_of_ownerless {node : Node} (ownerless : s.Ownerless node.op.feature) :
    node.inputs = node.dependencies := by
  obtain ⟨sketch, profile, _⟩ := ownerless
  refine Node.inputs_eq fun d member => ?_
  cases is : node.op.feature <;> rw [is] at profile member <;> cases profile <;> cases member

/-- What a feature with an ownerless profile was built from is gone. -/
theorem Linked.dangling_of_ownerless (linked : s.Linked mentioned) {id : OpId} {node : Node}
    (found : s.nodes.get? id = some node) (ownerless : s.Ownerless node.op.feature)
    (built : node.dependencies ≠ []) : ∃ d ∈ node.dependencies, ¬ s.contains d = true := by
  obtain ⟨sketch, profile, owner⟩ := ownerless
  have nothing : s.named node.op.feature = [] := by simp [named, profile, owner]
  have recorded := linked.recorded id node found
  rw [nothing, List.filter_nil, List.filter_eq_nil_iff] at recorded
  obtain ⟨d, dependency⟩ := List.exists_mem_of_ne_nil _ built
  exact ⟨d, dependency, recorded d dependency⟩

theorem Linked.plan_nodup (linked : s.Linked mentioned) (params : Parameters) :
    ((s.plan params).map (·.id)).Nodup := by
  rw [linked.plan_ids]
  exact linked.visible_nodup

theorem Linked.contains_of_shape (linked : s.Linked mentioned) (kernel : Kernel σ) (state : σ)
    {before after : List PlannedOp} (split : s.plan params = before ++ after) {d : OpId}
    (shape : (gather .empty ((rebuild kernel before).run state).1.results).contains d = true) :
    s.contains d = true := by
  have member := mem_of_contains_gather shape
  rw [rebuild_ids] at member
  have planned : d ∈ s.visible := by
    rw [← linked.plan_ids params, split, List.map_append]
    exact List.mem_append_left _ member
  exact contains_of_isActive (List.mem_filter.mp planned).2

theorem Linked.get?_shapes (linked : s.Linked mentioned) (kernel : Kernel σ) (state : σ)
    {before after : List PlannedOp} (split : s.plan params = before ++ after) (d : OpId) :
    (gather .empty ((rebuild kernel before).run state).1.results).get? d =
      RebuildReport.shape? ⟨((rebuild kernel before).run state).1.results⟩ d := by
  refine get?_gather ?_ d
  have distinct := linked.plan_nodup params
  rw [split, List.map_append, List.nodup_append] at distinct
  rw [rebuild_ids]
  exact distinct.1

theorem Linked.call_inputs (linked : s.Linked mentioned) (kernel : Kernel σ) (state : σ)
    {op : PlannedOp} {inputs : List BuiltShape}
    (called : (op, inputs) ∈ kernelCalls kernel (s.plan params) state) :
    ∃ earlier result later node,
      ((rebuild kernel (s.plan params)).run state).1.results =
        earlier ++ (op.id, result) :: later ∧
      s.nodes.get? op.id = some node ∧
      (s.named node.op.feature).map (RebuildReport.shape? ⟨earlier⟩) = inputs.map some := by
  obtain ⟨before, after, split, found⟩ := (mem_kernelCalls kernel state).mp called
  have planned : op ∈ s.plan params := by rw [split]; exact List.mem_append_cons_self
  obtain ⟨node, here, same⟩ := linked.mem_plan planned
  obtain ⟨later, results⟩ := rebuild_append kernel state before after op
  have present : ∀ d ∈ node.inputs, s.contains d = true := fun d member =>
    linked.contains_of_shape kernel state split
      (exists_inputShapes.mp ⟨inputs, found⟩ d (same ▸ member))
  have shapes := inputShapes_eq_ok.mp found
  rw [same, linked.inputs_eq_named here present] at shapes
  refine ⟨_, _, later, node, by rw [split, results], here, ?_⟩
  rw [← shapes]
  exact List.map_congr_left fun d _ => (linked.get?_shapes kernel state split d).symm

theorem Linked.missing_input (linked : s.Linked mentioned) (kernel : Kernel σ) (state : σ)
    {earlier later : List (OpId × Except KernelError BuiltShape)} {id : OpId}
    {result : Except KernelError BuiltShape} {node : Node}
    (split : ((rebuild kernel (s.plan params)).run state).1.results =
      earlier ++ (id, result) :: later)
    (found : s.nodes.get? id = some node) {d : OpId} (needed : d ∈ node.inputs)
    (missing : RebuildReport.shape? ⟨earlier⟩ d = none) :
    (∃ d, result = .error (.missingInput d)) ∧
      ∀ op inputs, (op, inputs) ∈ kernelCalls kernel (s.plan params) state → op.id ≠ id := by
  obtain ⟨before, op, after, plan, rfl, rfl, rfl⟩ := rebuild_result kernel state split
  have planned : op ∈ s.plan params := by rw [plan]; exact List.mem_append_cons_self
  obtain ⟨_, lookup, same⟩ := linked.mem_plan planned
  rw [found] at lookup
  cases lookup
  have incomplete : ¬ ∀ i ∈ op.inputs,
      (gather .empty ((rebuild kernel before).run state).1.results).contains i = true := by
    intro complete
    have there := complete d (same ▸ needed)
    rw [SortedMap.contains, linked.get?_shapes kernel state plan, missing] at there
    cases there
  obtain ⟨input, _, _, failed⟩ :=
    buildOne_missing incomplete kernel ((rebuild kernel before).run state).2
  refine ⟨⟨input, by rw [failed]⟩, fun op' inputs called key => ?_⟩
  obtain ⟨before', after', plan', built⟩ := (mem_kernelCalls kernel state).mp called
  have distinct := linked.plan_nodup params
  rw [plan] at distinct
  obtain ⟨rfl, rfl⟩ := split_unique (·.id) distinct (plan ▸ plan') key.symm
  exact incomplete (exists_inputShapes.mp ⟨inputs, built⟩)

end

end Studio

open Session (FreshFrom)

section

variable (first : StudioId) (settings : Settings) (commands : List (Timestamp × Session.Command))

/-- With a kernel that never fails, a rebuild has one result for each visible feature, in order:
a shape if all that the feature needs, through any number of features, is present and not
suppressed, and a missing input otherwise. -/
theorem rebuild_builds_intact (fresh : FreshFrom [⟨.studio, first⟩] (commands.map (·.2)))
    {s : Studio} (reached : s ∈ (Session.after first settings commands).document.studios)
    (params : Parameters) {σ : Type} (kernel : Kernel σ)
    (succeeds : ∀ op inputs state, ∃ shape, ((kernel.build op inputs).run state).1 = .ok shape)
    (state : σ) :
    let results := ((rebuild kernel (s.plan params)).run state).1.results
    results.map (·.1) = s.visible ∧ s.visible.Nodup ∧
    ∀ id result, (id, result) ∈ results →
      ((∃ shape, result = .ok shape) ↔
        ∀ needed, Relation.TransGen s.Needs id needed → s.isActive needed = true) ∧
      ((∃ needed, Relation.TransGen s.Needs id needed ∧ s.isActive needed = false) →
        ∃ input, s.Needs id input ∧ result = .error (.missingInput input)) := by
  obtain ⟨mentioned, links⟩ := Studio.linked_after fresh
  have linked := links s reached
  refine ⟨by rw [rebuild_ids, linked.plan_ids], linked.visible_nodup, fun id result member => ?_⟩
  obtain ⟨earlier, later, split⟩ := List.append_of_mem member
  obtain ⟨before, op, after, plan, rfl, rfl, rfl⟩ := rebuild_result kernel state split
  have built := linked.built_of_before succeeds plan
    (linked.contains_shapes succeeds state plan) ((rebuild kernel before).run state).2
  have active : s.isActive op.id = true := by
    have planned : op.id ∈ s.visible := by
      rw [← linked.plan_ids params, plan]
      simp
    exact (List.mem_filter.mp planned).2
  have intact : s.Intact op.id ↔
      ∀ needed, Relation.TransGen s.Needs op.id needed → s.isActive needed = true := by
    constructor
    · intro intact needed path
      exact intact needed path.to_reflTransGen
    · intro all needed path
      rcases Relation.reflTransGen_iff_eq_or_transGen.mp path with rfl | path
      · exact active
      · exact all needed path
  refine ⟨built.trans intact, ?_⟩
  rintro ⟨needed, path, inactive⟩
  have broken : ¬ s.Intact op.id := by
    intro whole
    rw [intact.mp whole needed path] at inactive
    cases inactive
  rw [← built, buildOne_succeeds succeeds] at broken
  obtain ⟨input, needs, _, failed⟩ :=
    buildOne_missing broken kernel ((rebuild kernel before).run state).2
  have planned : op ∈ s.plan params := by rw [plan]; exact List.mem_append_cons_self
  obtain ⟨node, found, inputs⟩ := linked.mem_plan planned
  exact ⟨input, ⟨node, found, inputs ▸ needs⟩, by rw [failed]⟩

def Kernel.counting : Kernel Nat where
  name := "counting"
  available := true
  build _ _ := fun made => (.ok ⟨made⟩, made + 1)

def suppressedBase : List (Timestamp × Session.Command) :=
  [(⟨0, 0⟩, .createSketch (Id.ofNat 1) (Id.ofNat 10) (Id.ofNat 2) none),
    (⟨1, 0⟩, .createExtrude (Id.ofNat 1) (Id.ofNat 3) (.sketch (Id.ofNat 10)) .positive "4"),
    (⟨2, 0⟩, .createFillet (Id.ofNat 1) (Id.ofNat 4) (Id.ofNat 3) [] "1"),
    (⟨3, 0⟩, .createSketch (Id.ofNat 1) (Id.ofNat 11) (Id.ofNat 5) none),
    (⟨4, 0⟩, .setSuppressed (Id.ofNat 1) (Id.ofNat 2) true)]

theorem rebuild_builds_intact_suppressedBase :
    let s := (Session.after (Id.ofNat 1) .standard suppressedBase).document.firstStudio
    let results := ((rebuild Kernel.counting (s.plan .empty)).run 0).1.results
    FreshFrom [⟨.studio, Id.ofNat 1⟩] (suppressedBase.map (·.2)) ∧
    results = [(Id.ofNat 3, .error (.missingInput (Id.ofNat 2))),
      (Id.ofNat 4, .error (.missingInput (Id.ofNat 3))), (Id.ofNat 5, .ok ⟨0⟩)] ∧
    s.visible = [Id.ofNat 3, Id.ofNat 4, Id.ofNat 5] ∧
    ¬ ∀ needed, Relation.TransGen s.Needs (Id.ofNat 4) needed → s.isActive needed = true := by
  intro s results
  have fresh : FreshFrom [⟨.studio, Id.ofNat 1⟩] (suppressedBase.map (·.2)) := by decide +kernel
  have built : results = [(Id.ofNat 3, .error (.missingInput (Id.ofNat 2))),
      (Id.ofNat 4, .error (.missingInput (Id.ofNat 3))), (Id.ofNat 5, .ok ⟨0⟩)] := by
    decide +kernel
  have reached : s ∈ (Session.after (Id.ofNat 1) .standard suppressedBase).document.studios :=
    List.head_mem _
  obtain ⟨ids, _, entries⟩ := rebuild_builds_intact (Id.ofNat 1) .standard suppressedBase fresh
    reached .empty Kernel.counting (fun _ _ made => ⟨⟨made⟩, rfl⟩) 0
  refine ⟨fresh, built, ?_, fun intact => ?_⟩
  · rw [← ids]
    change results.map (·.1) = _
    rw [built]
    rfl
  · have entry : (Id.ofNat 4, .error (.missingInput (Id.ofNat 3))) ∈ results := by
      rw [built]
      simp
    obtain ⟨shape, same⟩ := (entries _ _ entry).1.mpr intact
    cases same

/-- A kernel is given the shapes of what the fields of a feature name, in this order. A feature
fails without a call if one of these has no shape. If its profile is a sketch without an
owner, it fails if it was built from an owner at all, and is built from nothing otherwise. -/
theorem rebuild_calls (fresh : FreshFrom [⟨.studio, first⟩] (commands.map (·.2)))
    {s : Studio} (reached : s ∈ (Session.after first settings commands).document.studios)
    (params : Parameters) {σ : Type} (kernel : Kernel σ) (state : σ) :
    let results := ((rebuild kernel (s.plan params)).run state).1.results
    let calls := kernelCalls kernel (s.plan params) state
    (∀ op inputs, (op, inputs) ∈ calls → ∃ earlier result later node,
      results = earlier ++ (op.id, result) :: later ∧ s.nodes.get? op.id = some node ∧
      (s.named node.op.feature).map (RebuildReport.shape? ⟨earlier⟩) = inputs.map some) ∧
    ∀ earlier id result later node, results = earlier ++ (id, result) :: later →
      s.nodes.get? id = some node →
      ((∃ d ∈ s.named node.op.feature, RebuildReport.shape? ⟨earlier⟩ d = none) ∨
          s.Ownerless node.op.feature ∧ node.dependencies ≠ [] →
        (∃ d, result = .error (.missingInput d)) ∧
          ∀ op inputs, (op, inputs) ∈ calls → op.id ≠ id) ∧
      (s.Ownerless node.op.feature ∧ node.dependencies = [] →
        ∃ op, op.id = id ∧ (op, []) ∈ calls) := by
  obtain ⟨mentioned, links⟩ := Studio.linked_after fresh
  have linked := links s reached
  refine ⟨fun op inputs => linked.call_inputs kernel state, ?_⟩
  intro earlier id result later node split found
  obtain ⟨before, op, after, plan, rfl, rfl, _⟩ := rebuild_result kernel state split
  constructor
  · rintro (⟨d, named, missing⟩ | ⟨ownerless, built⟩)
    · exact linked.missing_input kernel state split found
        (linked.named_subset_inputs found named) missing
    · obtain ⟨d, dependency, absent⟩ := linked.dangling_of_ownerless found ownerless built
      refine linked.missing_input kernel state split found
        (Node.mem_inputs.mpr (.inl dependency)) ?_
      rw [← linked.get?_shapes kernel state plan]
      by_contra shape
      have there := linked.contains_of_shape kernel state plan (Option.isSome_iff_ne_none.mpr shape)
      exact absent there
  · rintro ⟨ownerless, built⟩
    have planned : op ∈ s.plan params := by rw [plan]; exact List.mem_append_cons_self
    obtain ⟨_, lookup, same⟩ := linked.mem_plan planned
    rw [found] at lookup
    cases lookup
    rw [Studio.inputs_of_ownerless ownerless, built] at same
    refine ⟨op, rfl, (mem_kernelCalls kernel state).mpr ⟨before, after, plan, ?_⟩⟩
    rw [same]
    rfl

def deletedProfile : List (Timestamp × Session.Command) :=
  [(⟨0, 0⟩, .createSketch (Id.ofNat 1) (Id.ofNat 10) (Id.ofNat 2) none),
    (⟨1, 0⟩, .deleteOp (Id.ofNat 1) (Id.ofNat 2)),
    (⟨2, 0⟩, .createExtrude (Id.ofNat 1) (Id.ofNat 3) (.sketch (Id.ofNat 10)) .positive "1")]

theorem rebuild_calls_deletedProfile :
    let s := (Session.after (Id.ofNat 1) .standard deletedProfile).document.firstStudio
    FreshFrom [⟨.studio, Id.ofNat 1⟩] (deletedProfile.map (·.2)) ∧
    ∃ op, op.id = Id.ofNat 3 ∧ (op, []) ∈ kernelCalls Kernel.counting (s.plan .empty) 0 := by
  intro s
  have fresh : FreshFrom [⟨.studio, Id.ofNat 1⟩] (deletedProfile.map (·.2)) := by decide +kernel
  have results : ((rebuild Kernel.counting (s.plan .empty)).run 0).1.results =
      [] ++ (Id.ofNat 3, .ok ⟨0⟩) :: [] := by decide +kernel
  have node : s.nodes.get? (Id.ofNat 3) = some ⟨.new (Id.ofNat 3) "Extrude 1"
      (.extrude (.sketch (Id.ofNat 10)) .positive (.literal 1.0)), []⟩ := by decide +kernel
  have owner : s.sketchOp? (Id.ofNat 10) = none := by decide +kernel
  have reached : s ∈ (Session.after (Id.ofNat 1) .standard deletedProfile).document.studios :=
    List.head_mem _
  have calls := (rebuild_calls (Id.ofNat 1) .standard deletedProfile fresh reached .empty
    Kernel.counting 0).2 [] _ _ [] _ results node
  exact ⟨fresh, calls.2 ⟨⟨Id.ofNat 10, rfl, owner⟩, rfl⟩⟩

/-- The kernel builds the extrusion although no feature owns its profile. -/
theorem deletedProfile_built :
    let s := (Session.after (Id.ofNat 1) .standard deletedProfile).document.firstStudio
    (s.op? (Id.ofNat 3)).bind (·.feature.profile?) = some (.sketch (Id.ofNat 10)) ∧
    s.sketchOp? (Id.ofNat 10) = none ∧
    (kernelCalls Kernel.counting (s.plan .empty) 0).map (fun c => (c.1.id, c.2)) =
      [(Id.ofNat 3, [])] ∧
    ((rebuild Kernel.counting (s.plan .empty)).run 0).1.results = [(Id.ofNat 3, .ok ⟨0⟩)] := by
  decide +kernel

end

end Parametric
