import Parametric.Dimension
import Parametric.Sketch
/-! Features: the steps that build a part. -/

set_option autoImplicit false

namespace Parametric

structure FaceRef where
  op : OpId
  index : Nat
  deriving DecidableEq, Repr

inductive Profile where
  | sketch (id : SketchId)
  | face (face : FaceRef)
  deriving DecidableEq, Repr

inductive ExtrudeDirection where
  | positive
  | negative
  | symmetric
  deriving DecidableEq, Repr

namespace ExtrudeDirection

def all : List ExtrudeDirection := [positive, negative, symmetric]

def name : ExtrudeDirection → String
  | positive => "Positive"
  | negative => "Negative"
  | symmetric => "Symmetric"

end ExtrudeDirection

inductive BooleanOperation where
  | union
  | subtract
  | intersect
  deriving DecidableEq, Repr

namespace BooleanOperation

def all : List BooleanOperation := [union, subtract, intersect]

def name : BooleanOperation → String
  | union => "Union"
  | subtract => "Subtract"
  | intersect => "Intersect"

end BooleanOperation

namespace AxisChoice

def all : List AxisChoice := [worldX, worldY, sketchX, sketchY]

def name : AxisChoice → String
  | worldX => "WorldX"
  | worldY => "WorldY"
  | sketchX => "SketchX"
  | sketchY => "SketchY"

end AxisChoice

inductive Feature where
  | sketch (sketch : SketchId) (plane : PlaneId)
  | extrude (profile : Profile) (direction : ExtrudeDirection) (depth : Dimension)
  /-- The axis is resolved when the feature is made; the angle is in degrees. -/
  | revolve (profile : Profile) (choice : AxisChoice) (axis : Axis) (angle : Dimension)
  | fillet (target : OpId) (edges : List Nat) (radius : Dimension)
  | boolean (operation : BooleanOperation) (target tool : OpId)
  deriving BEq, DecidableEq, Repr

namespace Feature

def typeName : Feature → String
  | sketch .. => "Sketch"
  | extrude .. => "Extrude"
  | revolve .. => "Revolve"
  | fillet .. => "Fillet"
  | boolean .. => "Boolean"

def ownedSketch? : Feature → Option SketchId
  | sketch s _ => some s
  | _ => none

def profile? : Feature → Option Profile
  | extrude profile .. | revolve profile .. => some profile
  | _ => none

def references : Feature → List OpId
  | extrude (.face f) .. | revolve (.face f) .. => [f.op]
  | fillet target .. => [target]
  | boolean _ target tool => [target, tool]
  | _ => []

def dimensions : Feature → List Dimension
  | extrude _ _ depth => [depth]
  | revolve _ _ _ angle => [angle]
  | fillet _ _ radius => [radius]
  | _ => []

/-- Change each dimension, given its position among the dimensions. -/
def mapDimensions (change : Nat → Dimension → Dimension) : Feature → Feature
  | extrude profile direction depth => extrude profile direction (change 0 depth)
  | revolve profile choice axis angle => revolve profile choice axis (change 0 angle)
  | fillet target edges radius => fillet target edges (change 0 radius)
  | other => other

end Feature

structure Op where
  id : OpId
  name : String
  feature : Feature
  suppressed : Bool
  deriving BEq, DecidableEq, Repr

namespace Op

def new (fresh : OpId) (name : String) (feature : Feature) : Op :=
  ⟨fresh, name, feature, false⟩

def typeName (op : Op) : String :=
  op.feature.typeName

def mapDimensions (op : Op) (change : Nat → Dimension → Dimension) : Op :=
  { op with feature := op.feature.mapDimensions change }

end Op

end Parametric
