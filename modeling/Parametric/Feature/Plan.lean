import Parametric.Feature.Studio
/-! The plan of a studio: its visible features with every dimension reduced to a number. -/

set_option autoImplicit false

namespace Parametric

inductive PlannedFeature where
  | sketch (sketch : SketchId) (plane : Plane) (primitives : List (PrimitiveId × Primitive))
      (solved : List (PrimitiveId × Vec2))
  | extrude (profile : Profile) (direction : ExtrudeDirection) (depth : Float)
  /-- The angle is in radians. -/
  | revolve (profile : Profile) (axis : Axis) (angle : Float)
  | fillet (target : OpId) (edges : List Nat) (radius : Float)
  | boolean (operation : BooleanOperation) (target tool : OpId)
  deriving BEq, DecidableEq, Repr

structure PlannedOp where
  id : OpId
  name : String
  inputs : List OpId
  feature : PlannedFeature
  deriving BEq, DecidableEq, Repr

namespace Studio

/-- Resolve a feature. A sketch feature whose sketch is missing has no plan; a missing
plane gives way to the top plane. -/
def planFeature? (s : Studio) (params : Parameters) : Feature → Option PlannedFeature
  | .sketch id plane => (s.sketches.get? id).map fun sketch =>
    .sketch id ((s.planes.get? plane).getD DatumPlane.xy.plane) sketch.primitives.entries
      sketch.solved.entries
  | .extrude profile direction depth => some (.extrude profile direction (depth.resolve params))
  | .revolve profile _ axis angle =>
    some (.revolve profile (.make axis.origin axis.direction)
      (Formula.radiansOfDegrees (angle.resolve params)))
  | .fillet target edges radius => some (.fillet target edges (radius.resolve params))
  | .boolean operation target tool => some (.boolean operation target tool)

def planNode? (s : Studio) (params : Parameters) (node : Node) : Option PlannedOp :=
  (s.planFeature? params node.op.feature).map fun feature =>
    ⟨node.op.id, node.op.name, node.inputs, feature⟩

def plan (s : Studio) (params : Parameters) : List PlannedOp :=
  (s.effectiveOps.filter fun node => !node.op.suppressed).filterMap (s.planNode? params)

end Studio

end Parametric
