import Parametric.Ron.Schema
import Parametric.Saved.Form
/-! The stored form of a document out of RON. -/

set_option autoImplicit false

namespace Parametric

open Ron (Schema Fields)

def entriesSchema {kind : IdKind} {α : Type} (value : Schema α) : Schema (List (Id kind × α)) :=
  .list (.pair .id value)

namespace Parameter

def schema : Schema Parameter :=
  .record "Parameter" <| Parameter.mk
    <$> .required "id" .id
    <*> .required "name" .string
    <*> .required "expression" .string
    <*> .required "value" .float
    <*> .defaulted "unit" (.option .string) none

def listSchema : Schema (List Parameter) :=
  .record "ParamEnvData" <| .required "params" (.list schema)

end Parameter

def Dimension.schema : Schema Dimension :=
  .record "Dim" <| Dimension.mk
    <$> .required "value" .float
    <*> .defaulted "expression" (.option .string) none
    <*> .defaulted "param" (.option .id) none

def Plane.schema : Schema Plane :=
  .record "Plane" <| Plane.mk
    <$> .required "id" .id
    <*> .required "name" .string
    <*> .required "origin" .vec3
    <*> .required "normal" .vec3
    <*> .required "x_axis" .vec3
    <*> .required "y_axis" .vec3

def Shape.kinds : List (String × Fields Shape) :=
  [("Point", Shape.point <$> .required "x" .float <*> .required "y" .float),
    ("Line", Shape.line <$> .required "start" .id <*> .required "end" .id),
    ("Circle", Shape.circle <$> .required "center" .id <*> .required "radius" .float),
    ("Arc", Shape.arc <$> .required "center" .id <*> .required "start" .id
      <*> .required "end" .id <*> .required "clockwise" .bool)]

def Primitive.schema : Schema Primitive :=
  .variants <| Shape.kinds.map fun (kind, shape) =>
    (kind, Primitive.mk <$> shape <*> .defaulted "construction" .bool false)

def SavedSketch.schema : Schema SavedSketch :=
  .record "SketchData" <| SavedSketch.mk
    <$> .required "id" .id
    <*> .required "name" .string
    <*> .required "plane_id" .id
    <*> .required "primitives" (entriesSchema Primitive.schema)
    <*> .defaulted "solved_positions" (entriesSchema .vec2) []

def FaceRef.schema : Schema FaceRef :=
  .record "FaceRef" <| FaceRef.mk <$> .required "op_id" .id <*> .required "index" (.natural 32)

def Profile.schema : Schema Profile :=
  .variants [("Sketch", Profile.sketch <$> .required "sketch_id" .id),
    ("Face", Profile.face <$> .required "face_ref" FaceRef.schema)]

def Feature.kinds : List (String × Fields Feature) :=
  [("Sketch", Feature.sketch <$> .required "sketch_id" .id <*> .required "plane_ref" .id),
    ("Extrude", Feature.extrude <$> .required "profile" Profile.schema
      <*> .required "direction" (.choice ExtrudeDirection.all ExtrudeDirection.name)
      <*> .required "depth" Dimension.schema),
    ("Revolve", (fun profile choice origin direction angle =>
        Feature.revolve profile choice ⟨origin, direction⟩ angle)
      <$> .required "profile" Profile.schema
      <*> .required "axis" (.choice AxisChoice.all AxisChoice.name)
      <*> .required "axis_origin" .vec3
      <*> .required "axis_direction" .vec3
      <*> .required "angle" Dimension.schema),
    ("Fillet", Feature.fillet <$> .required "target_op" .id
      <*> .required "edges" (.list (.natural 32)) <*> .required "radius" Dimension.schema),
    ("Boolean", Feature.boolean
      <$> .required "operation" (.choice BooleanOperation.all BooleanOperation.name)
      <*> .required "target_op" .id <*> .required "tool_op" .id)]

def Op.schema : Schema Op :=
  .variants <| Feature.kinds.map fun (kind, feature) =>
    (kind, Op.mk <$> .required "id" .id <*> .required "name" .string <*> feature
      <*> .defaulted "suppressed" .bool false)

def Node.schema : Schema Node :=
  .record "OpGraphNode" <| Node.mk
    <$> .required "op" Op.schema <*> .required "deps" (.list .id)

/-- The time of the last change, which a studio keeps apart from the model. -/
def modifiedSchema : Schema (Option Timestamp) :=
  .record "StudioMeta" <| .defaulted "modified_at" (.option .timestamp) none

def SavedStudio.schema : Schema SavedStudio :=
  .record "PartStudioData" <| SavedStudio.mk
    <$> .required "id" .id
    <*> .required "name" .string
    <*> .required "op_graph" (entriesSchema Node.schema)
    <*> .required "sketches" (entriesSchema SavedSketch.schema)
    <*> .required "planes" (entriesSchema Plane.schema)
    <*> .defaulted "timeline_position" (.option (.natural 64)) none
    <*> .defaulted "meta" modifiedSchema none

def SavedDocument.schema : Schema SavedDocument :=
  .record "DocumentData" <| SavedDocument.mk
    <$> .required "part_studios" (entriesSchema SavedStudio.schema)
    <*> .defaulted "params" Parameter.listSchema []

end Parametric
