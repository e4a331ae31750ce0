import Parametric.Feature.Plan
import Parametric.Proofs.Feature.Tree
/-! The plan of a studio in which the dimension of one feature is changed.

The plan keeps its features with their inputs, in their order, and has another number in one place.
-/

set_option autoImplicit false

namespace Parametric

/-! ## Features -/

theorem Feature.references_mapDimensions (feature : Feature)
    (change : Nat → Dimension → Dimension) :
    (feature.mapDimensions change).references = feature.references := by
  cases feature with
  | extrude profile => cases profile <;> rfl
  | revolve profile => cases profile <;> rfl
  | _ => rfl

theorem Feature.dimensions_of_getElem? {feature : Feature} {index : Nat} {d : Dimension}
    (there : feature.dimensions[index]? = some d) : feature.dimensions = [d] ∧ index = 0 := by
  cases feature <;> cases index <;> simp_all [dimensions]

def PlannedFeature.withNumber (x : Float) : PlannedFeature → PlannedFeature
  | extrude profile direction _ => extrude profile direction x
  | revolve profile axis _ => revolve profile axis (Formula.radiansOfDegrees x)
  | fillet target edges _ => fillet target edges x
  | other => other

/-- A plan with another number for the dimension of one feature. -/
def renumber (id : OpId) (x : Float) (plan : List PlannedOp) : List PlannedOp :=
  plan.map fun op => if op.id = id then { op with feature := op.feature.withNumber x } else op

namespace Studio

variable {s t : Studio} {params : Parameters} {id : OpId} {node : Node} {d : Dimension}
  {change : Nat → Dimension → Dimension}

theorem planFeature?_mapDimensions (s t : Studio) {feature : Feature}
    (only : feature.dimensions = [d]) :
    t.planFeature? params (feature.mapDimensions change) =
      (s.planFeature? params feature).map (·.withNumber ((change 0 d).resolve params)) := by
  cases feature with
  | sketch | boolean => cases only
  | extrude | revolve | fillet =>
    cases only
    rfl

theorem id_of_planNode? {op : PlannedOp} (planned : s.planNode? params node = some op) :
    op.id = node.op.id := by
  obtain ⟨feature, _, rfl⟩ := Option.map_eq_some_iff.mp planned
  rfl

theorem planNode?_mapDimensions (s t : Studio) (only : node.op.feature.dimensions = [d]) :
    t.planNode? params { node with op := node.op.mapDimensions change } =
      (s.planNode? params node).map fun op =>
        { op with feature := op.feature.withNumber ((change 0 d).resolve params) } := by
  unfold planNode? Node.inputs Op.mapDimensions
  dsimp only
  rw [planFeature?_mapDimensions s t only, Feature.references_mapDimensions, Option.map_map,
    Option.map_map]
  rfl

theorem withNumber_resolve {feature : Feature} (only : feature.dimensions = [d])
    {planned : PlannedFeature} (plans : s.planFeature? params feature = some planned) :
    planned.withNumber (d.resolve params) = planned := by
  cases feature with
  | sketch | boolean => cases only
  | extrude | revolve | fillet =>
    cases only
    cases plans
    rfl

/-! ## Studios -/

variable (ids : ∀ id node, s.nodes.get? id = some node → node.op.id = id)
include ids

theorem node_of_mem_effectiveOps (found : s.nodes.get? id = some node) {other : Node}
    (member : other ∈ s.effectiveOps) (same : other.op.id = id) : other = node := by
  obtain ⟨key, _, there⟩ := List.mem_filterMap.mp member
  rw [ids key other there] at same
  rw [same, found] at there
  exact (Option.some.inj there).symm

theorem renumber_resolve (found : s.nodes.get? id = some node)
    (only : node.op.feature.dimensions = [d]) :
    renumber id (d.resolve params) (s.plan params) = s.plan params := by
  unfold renumber
  refine (List.map_congr_left fun op member => ?_).trans (List.map_id _)
  obtain ⟨other, visible, plans⟩ := List.mem_filterMap.mp member
  obtain ⟨planned, resolved, rfl⟩ := Option.map_eq_some_iff.mp plans
  dsimp only
  split
  · next same =>
    obtain rfl := node_of_mem_effectiveOps ids found (List.mem_filter.mp visible).1 same
    rw [withNumber_resolve only resolved]
    rfl
  · rfl

theorem effectiveOps_update {f : Op → Op} (found : s.nodes.get? id = some node) :
    effectiveOps { s with nodes := s.nodes.insert id { node with op := f node.op } } =
      s.effectiveOps.map fun other =>
        if other.op.id = id then { other with op := f other.op } else other := by
  unfold effectiveOps effectiveLength
  rw [List.map_filterMap]
  refine List.filterMap_congr fun key _ => ?_
  dsimp only
  rw [SortedMap.get?_insert]
  split
  · next same =>
    subst same
    rw [found, Option.map_some]
    exact congrArg some (if_pos (ids key node found)).symm
  · next different =>
    cases there : s.nodes.get? key with
    | none => rfl
    | some other =>
      have apart : other.op.id ≠ id := ids key other there ▸ different
      exact congrArg some (if_neg apart).symm

/-- A changed dimension shows in the plan by the number that it stands for now. -/
theorem plan_update (found : s.nodes.get? id = some node)
    (only : node.op.feature.dimensions = [d])
    (updated : s.update? id (·.mapDimensions change) = some t) :
    t.plan params = renumber id ((change 0 d).resolve params) (s.plan params) := by
  obtain ⟨_, lookup, _, rfl⟩ := update?_eq_some updated
  rw [found] at lookup
  cases lookup
  unfold plan renumber
  rw [effectiveOps_update ids found (f := (·.mapDimensions change)), List.filter_map,
    List.filterMap_map, List.map_filterMap]
  have shown : (fun other : Node => !other.op.suppressed) ∘ (fun other =>
      if other.op.id = id then { other with op := other.op.mapDimensions change } else other) =
        fun other => !other.op.suppressed := by
    funext other
    dsimp only [Function.comp_apply]
    split <;> rfl
  rw [shown]
  refine List.filterMap_congr fun other visible => ?_
  dsimp only [Function.comp_apply]
  split
  · next same =>
    have member := (List.mem_filter.mp visible).1
    obtain rfl := node_of_mem_effectiveOps ids found member same
    rw [planNode?_mapDimensions s _ only]
    exact Option.map_congr fun op planned => (if_pos ((id_of_planNode? planned).trans same)).symm
  · next different =>
    have apart : ∀ op, s.planNode? params other = some op → op.id ≠ id := fun op planned same =>
      different ((id_of_planNode? planned).symm.trans same)
    refine Eq.trans ?_ (Option.map_congr fun op planned => (if_neg (apart op planned)).symm)
    exact Option.map_id'.symm

end Studio

end Parametric
