import Parametric.Feature.Op
import Parametric.Timestamp
/-! Part studios: the features of one part in the order they were made.

Each feature keeps the features it was built from. A cutoff hides the features
from some place in the order on. Removing a feature leaves dangling
dependencies in the features that were built from it.
-/

set_option autoImplicit false

namespace Parametric

structure Node where
  op : Op
  dependencies : List OpId
  deriving BEq, DecidableEq, Repr

/-- The dependencies, then what else the feature's own fields name. -/
def Node.inputs (node : Node) : List OpId :=
  node.op.feature.references.foldl
    (fun inputs id => if id ∈ inputs then inputs else inputs ++ [id]) node.dependencies

structure Studio where
  id : StudioId
  name : String
  nodes : SortedMap OpId Node
  order : List OpId
  sketches : SortedMap SketchId Sketch
  planes : SortedMap PlaneId Plane
  /-- How many features of the order take effect; all, if there is no cutoff. -/
  cutoff : Option Nat
  modified : Option Timestamp
  deriving BEq, DecidableEq

namespace Studio

def withDatumPlanes (planes : SortedMap PlaneId Plane) : SortedMap PlaneId Plane :=
  DatumPlane.all.foldl
    (fun planes d => if planes.contains d.id then planes else planes.insert d.id d.plane) planes

def new (fresh : StudioId) (name : String) : Studio :=
  ⟨fresh, name, .empty, [], .empty, withDatumPlanes .empty, none, none⟩

def contains (s : Studio) (id : OpId) : Bool :=
  s.nodes.contains id

def op? (s : Studio) (id : OpId) : Option Op :=
  (s.nodes.get? id).map (·.op)

def ops (s : Studio) : List Node :=
  s.order.filterMap s.nodes.get?

def indexOf? (s : Studio) (id : OpId) : Option Nat :=
  s.order.findIdx? (· = id)

def effectiveLength (s : Studio) : Nat :=
  s.cutoff.getD s.order.length

/-- The features before the cutoff, suppressed ones too. -/
def effectiveOps (s : Studio) : List Node :=
  (s.order.take s.effectiveLength).filterMap s.nodes.get?

/-- An order in which a search comes across the features. -/
structure SearchOrder where
  arrange : List Node → List Node
  perm : ∀ nodes, (arrange nodes).Perm nodes

def SearchOrder.byId : SearchOrder :=
  ⟨fun nodes => nodes, fun nodes => .refl nodes⟩

/-- The feature that owns a sketch; of several the one that the search comes across first. -/
def sketchOp? (s : Studio) (id : SketchId) (order : SearchOrder := .byId) : Option OpId :=
  ((order.arrange s.nodes.values).find? (·.op.feature.ownedSketch? = some id)).map (·.op.id)

def dependents (s : Studio) (id : OpId) : List OpId :=
  (s.ops.filter (id ∈ ·.dependencies)).map (·.op.id)

/-- Features with inputs that the studio does not have. -/
def danglingDependencies (s : Studio) : List (OpId × OpId) :=
  s.ops.flatMap fun node => (node.inputs.filter fun d => !s.contains d).map (node.op.id, ·)

def nextName (s : Studio) (typeName : String) : String :=
  let count := (s.nodes.values.filter (·.op.typeName = typeName)).length
  typeName ++ " " ++ toString (count + 1)

/-- Keep the identifiers of present features, each once. -/
def existing (s : Studio) (candidates : List OpId) : List OpId :=
  (candidates.filter s.contains).eraseDups

def profileDependencies (s : Studio) (profile : Profile)
    (order : SearchOrder := .byId) : List OpId :=
  match profile with
  | .sketch id => (s.sketchOp? id order).toList
  | .face f => s.existing [f.op]

/-- The plane that a profile lies on; a face counts as lying on the top plane. -/
def profilePlane (s : Studio) : Profile → Plane
  | .sketch id => (((s.sketches.get? id).bind fun sketch => s.planes.get? sketch.plane)).getD
      DatumPlane.xy.plane
  | .face _ => DatumPlane.xy.plane

def append (s : Studio) (op : Op) (dependencies : List OpId) : Studio :=
  { s with
    nodes := s.nodes.insert op.id ⟨op, dependencies⟩
    order := s.order ++ [op.id]
    cutoff := none }

/-- Append a sketch feature with a new empty sketch; an unknown plane gives way to the
top plane. -/
def addSketch (s : Studio) (freshSketch : SketchId) (fresh : OpId) (name : String)
    (plane : Option PlaneId) : Studio :=
  let plane := match plane with
    | some id => if s.planes.contains id then id else DatumPlane.xy.id
    | none => DatumPlane.xy.id
  let sketch := Sketch.new freshSketch name plane
  { s with sketches := s.sketches.insert freshSketch sketch }.append
    (.new fresh name (.sketch freshSketch plane)) []

def addExtrude (s : Studio) (fresh : OpId) (name : String) (profile : Profile)
    (direction : ExtrudeDirection) (depth : Dimension) (order : SearchOrder := .byId) : Studio :=
  s.append (.new fresh name (.extrude profile direction depth))
    (s.profileDependencies profile order)

def addRevolve (s : Studio) (fresh : OpId) (name : String) (profile : Profile)
    (choice : AxisChoice) (angle : Dimension) (order : SearchOrder := .byId) : Studio :=
  let axis := choice.resolve (s.profilePlane profile)
  s.append (.new fresh name (.revolve profile choice axis angle))
    (s.profileDependencies profile order)

def addFillet (s : Studio) (fresh : OpId) (name : String) (target : OpId) (edges : List Nat)
    (radius : Dimension) : Studio :=
  s.append (.new fresh name (.fillet target edges radius)) (s.existing [target])

def addBoolean (s : Studio) (fresh : OpId) (name : String) (operation : BooleanOperation)
    (target tool : OpId) : Studio :=
  s.append (.new fresh name (.boolean operation target tool)) (s.existing [target, tool])

def addPlane (s : Studio) (plane : Plane) : Studio :=
  { s with planes := s.planes.insert plane.id plane }

/-- Change a feature and keep its dependencies; refused if the feature is missing or the
change gives it another identifier. -/
def update? (s : Studio) (id : OpId) (change : Op → Op) : Option Studio :=
  match s.nodes.get? id with
  | none => none
  | some node =>
    let op := change node.op
    if op.id = id then some { s with nodes := s.nodes.insert id { node with op } } else none

def setSuppressed? (s : Studio) (id : OpId) (suppressed : Bool) : Option Studio :=
  s.update? id fun op => { op with suppressed }

/-- Remove a feature and the sketch it owns. The other features stay visible or hidden. -/
def delete? (s : Studio) (id : OpId) : Option (Op × Studio) :=
  match s.nodes.get? id with
  | none => none
  | some node =>
    -- A feature before the cutoff leaves one feature less to show.
    let cutoff := match s.indexOf? id, s.cutoff with
      | some index, some position => some (if index < position then position - 1 else position)
      | _, cutoff => cutoff
    let sketches := match node.op.feature.ownedSketch? with
      | some sketch => s.sketches.erase sketch
      | none => s.sketches
    let nodes := s.nodes.erase id
    some (node.op, { s with nodes, order := s.order.erase id, cutoff, sketches })

def renameParameter (s : Studio) (old fresh : String)
    (takes : String → Bool := Formula.anyWord) : Studio :=
  { s with nodes := s.nodes.map fun _ node =>
      { node with op := node.op.mapDimensions fun _ d => d.rename old fresh takes } }

def dimensionValues (s : Studio) (params : Parameters) : List (OpId × List Float) :=
  s.ops.map fun node => (node.op.id, node.op.feature.dimensions.map (·.resolve params))

/-- Set the cutoff, at most after the last feature. -/
def setCutoff (s : Studio) (position : Option Nat) : Studio :=
  { s with cutoff := position.map (min · s.order.length) }

def rollbackTo? (s : Studio) (id : OpId) : Option Studio :=
  (s.indexOf? id).map fun index => { s with cutoff := some (index + 1) }

def rollbackToEnd (s : Studio) : Studio :=
  { s with cutoff := none }

def touch (s : Studio) (now : Timestamp) : Studio :=
  { s with modified := some now }

end Studio

end Parametric
