import Parametric.Ron.Value
import Parametric.Saved.Form
/-! The stored form of a document as RON. -/

set_option autoImplicit false

namespace Parametric

open Ron (Value)

def Id.toRon {kind : IdKind} (id : Id kind) : Value :=
  .string id.text

def Vec2.toRon (v : Vec2) : Value :=
  .tuple [.float v.x, .float v.y]

def Vec3.toRon (v : Vec3) : Value :=
  .tuple [.float v.x, .float v.y, .float v.z]

def entriesToRon {kind : IdKind} {α : Type} (encode : α → Value) (entries : List (Id kind × α)) :
    Value :=
  .list (entries.map fun e => .pair e.1.toRon (encode e.2))

namespace Parameter

def toRon (p : Parameter) : Value :=
  .record none [("id", p.id.toRon), ("name", .string p.name), ("expression", .string p.expression),
    ("value", .float p.value), ("unit", .option .string p.unit)]

def listToRon (params : List Parameter) : Value :=
  .record none [("params", .list (params.map toRon))]

end Parameter

def Dimension.toRon (d : Dimension) : Value :=
  .record none [("value", .float d.value), ("expression", .option .string d.expression),
    ("param", .option Id.toRon d.parameter)]

def Plane.toRon (p : Plane) : Value :=
  .record none [("id", p.id.toRon), ("name", .string p.name), ("origin", p.origin.toRon),
    ("normal", p.normal.toRon), ("x_axis", p.xAxis.toRon), ("y_axis", p.yAxis.toRon)]

def Shape.fieldsToRon : Shape → List (String × Value)
  | point x y => [("x", .float x), ("y", .float y)]
  | line start finish => [("start", start.toRon), ("end", finish.toRon)]
  | circle center radius => [("center", center.toRon), ("radius", .float radius)]
  | arc center start finish clockwise =>
    [("center", center.toRon), ("start", start.toRon), ("end", finish.toRon),
      ("clockwise", .bool clockwise)]

def Primitive.toRon (p : Primitive) : Value :=
  .record (some p.typeName) (p.shape.fieldsToRon ++ [("construction", .bool p.construction)])

def SavedSketch.toRon (s : SavedSketch) : Value :=
  .record none [("id", s.id.toRon), ("name", .string s.name), ("plane_id", s.plane.toRon),
    ("primitives", entriesToRon Primitive.toRon s.primitives),
    ("solved_positions", entriesToRon Vec2.toRon s.solved)]

def FaceRef.toRon (f : FaceRef) : Value :=
  .record none [("op_id", f.op.toRon), ("index", .natural f.index)]

def Profile.toRon : Profile → Value
  | .sketch id => .record (some "Sketch") [("sketch_id", id.toRon)]
  | .face f => .record (some "Face") [("face_ref", f.toRon)]

def Feature.fieldsToRon : Feature → List (String × Value)
  | sketch s plane => [("sketch_id", s.toRon), ("plane_ref", plane.toRon)]
  | extrude profile direction depth =>
    [("profile", profile.toRon), ("direction", .choice direction.name), ("depth", depth.toRon)]
  | revolve profile choice axis angle =>
    [("profile", profile.toRon), ("axis", .choice choice.name),
      ("axis_origin", axis.origin.toRon), ("axis_direction", axis.direction.toRon),
      ("angle", angle.toRon)]
  | fillet target edges radius =>
    [("target_op", target.toRon), ("edges", .list (edges.map .natural)), ("radius", radius.toRon)]
  | boolean operation target tool =>
    [("operation", .choice operation.name), ("target_op", target.toRon),
      ("tool_op", tool.toRon)]

def Op.toRon (op : Op) : Value :=
  .record (some op.typeName)
    ([("id", op.id.toRon), ("name", .string op.name)] ++ op.feature.fieldsToRon ++
      [("suppressed", .bool op.suppressed)])

def Node.toRon (node : Node) : Value :=
  .record none [("op", node.op.toRon), ("deps", .list (node.dependencies.map Id.toRon))]

def SavedStudio.toRon (s : SavedStudio) : Value :=
  .record none [("id", s.id.toRon), ("name", .string s.name),
    ("op_graph", entriesToRon Node.toRon s.nodes),
    ("sketches", entriesToRon SavedSketch.toRon s.sketches),
    ("planes", entriesToRon Plane.toRon s.planes),
    ("timeline_position", .option .natural s.cutoff),
    ("meta", .record none [("modified_at", .option (fun t => .string (t.text "Z")) s.modified)])]

def SavedDocument.toRon (d : SavedDocument) : Value :=
  .record none [("part_studios", entriesToRon SavedStudio.toRon d.studios),
    ("params", Parameter.listToRon d.params)]

end Parametric
