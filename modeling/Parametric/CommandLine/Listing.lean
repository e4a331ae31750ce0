import Parametric.Document
import Parametric.Json
import Parametric.Text.Lines
/-! Listings of documents: parameters, features and plans. -/

set_option autoImplicit false

namespace Parametric.CommandLine

def parameterLine (params : Parameters) (p : Parameter) : String :=
  "  " ++ p.name ++ " = " ++ p.expression ++ match params.error? p.id with
    | some error => "  [error: " ++ error.message ++ "]"
    | none => "  -> " ++ NumberForm.plain.write p.value ++ p.unit.getD ""

def parameterLines (params : Parameters) : List String :=
  ("Parameters (" ++ toString params.list.length ++ ")") :: params.list.map (parameterLine params)

def flags (s : Studio) (place : Nat) (node : Node) : List String :=
  (if node.op.suppressed then ["suppressed"] else []) ++
    (if s.effectiveLength ≤ place then ["rolled back"] else []) ++
    (if node.inputs.any (!s.contains ·) then ["dangling"] else [])

def opLines (s : Studio) (place : Nat) (node : Node) : List String :=
  let noted := flags s place node
  let suffix := if noted.isEmpty then "" else "  [" ++ ", ".intercalate noted ++ "]"
  let sketch := node.op.feature.ownedSketch?.bind s.sketches.get?
  ("  " ++ toString (place + 1) ++ ". " ++ node.op.typeName ++ " " ++ node.op.name ++ suffix) ::
    sketch.toList.map fun k => "     " ++ toString k.primitives.size ++ " primitives"

def studioLines (s : Studio) : List String :=
  (s.name ++ " (" ++ toString s.order.length ++ " ops)") ::
    (s.ops.mapIdx (opLines s)).flatten

def listing (d : Document) : String :=
  Text.ofLines (parameterLines d.params ++ d.studios.flatMap studioLines)

def vectorText (v : Vec3) : String :=
  let write := NumberForm.listed.write
  "DVec3(" ++ write v.x ++ ", " ++ write v.y ++ ", " ++ write v.z ++ ")"

def plannedText (op : PlannedOp) : String :=
  op.name ++ ": " ++ match op.feature with
    | .sketch _ plane primitives _ =>
      "sketch on " ++ plane.name ++ " (" ++ toString primitives.length ++ " primitives)"
    | .extrude _ direction depth =>
      "extrude " ++ direction.name ++ " " ++ NumberForm.plain.write depth
    | .revolve _ axis angle =>
      "revolve " ++ writeFixed 4 angle ++ " rad about " ++ vectorText axis.direction
    | .fillet _ edges radius =>
      "fillet " ++ toString edges.length ++ " edges r=" ++ NumberForm.plain.write radius
    | .boolean operation .. => "boolean " ++ operation.name

def planListing (d : Document) : String :=
  Text.ofLines (d.studios.flatMap fun s =>
    s.name :: (s.plan d.params).map ("  " ++ plannedText ·))

open Json (Value)

def parameterValue (params : Parameters) (p : Parameter) : Value :=
  .object [("error", .option (.string ·.message) (params.error? p.id)),
    ("expression", .string p.expression), ("name", .string p.name),
    ("unit", .option .string p.unit), ("value", .number p.value)]

def opValue (node : Node) : Value :=
  .object [("deps", .list (node.dependencies.map (.string ·.text))),
    ("id", .string node.op.id.text), ("name", .string node.op.name),
    ("suppressed", .bool node.op.suppressed), ("type", .string node.op.typeName)]

def studioValue (s : Studio) : Value :=
  .object [("id", .string s.id.text), ("name", .string s.name),
    ("ops", .list (s.ops.map opValue)), ("timeline_position", .option .natural s.cutoff)]

def jsonListing (d : Document) : String :=
  Text.ofLines [(Value.object
    [("parameters", .list (d.params.list.map (parameterValue d.params))),
      ("part_studios", .list (d.studios.map studioValue))]).write]

end Parametric.CommandLine
