import Parametric.Identifier
/-! Vectors, the planes that sketches lie on, and axes of revolution. -/

set_option autoImplicit false

namespace Parametric

structure Vec2 where
  x : Float
  y : Float
  deriving BEq, DecidableEq, Repr

structure Vec3 where
  x : Float
  y : Float
  z : Float
  deriving BEq, DecidableEq, Repr

namespace Vec3

def zero : Vec3 := ⟨0.0, 0.0, 0.0⟩

/-- The vector scaled by the reciprocal of its length, not finite for a zero vector. -/
def normalize (v : Vec3) : Vec3 :=
  let scale := 1.0 / Float.sqrt (v.x * v.x + v.y * v.y + v.z * v.z)
  ⟨v.x * scale, v.y * scale, v.z * scale⟩

def cross (u v : Vec3) : Vec3 :=
  ⟨u.y * v.z - v.y * u.z, u.z * v.x - v.z * u.x, u.x * v.y - v.x * u.y⟩

end Vec3

inductive DatumPlane where
  | xy
  | xz
  | yz
  deriving DecidableEq, Repr, Inhabited

structure Plane where
  id : PlaneId
  name : String
  origin : Vec3
  normal : Vec3
  xAxis : Vec3
  yAxis : Vec3
  deriving BEq, DecidableEq, Repr

namespace DatumPlane

def all : List DatumPlane := [xy, xz, yz]

def id : DatumPlane → PlaneId
  | xy => Id.ofNat 1
  | xz => Id.ofNat 2
  | yz => Id.ofNat 3

def axes : DatumPlane → String
  | xy => "XY"
  | xz => "XZ"
  | yz => "YZ"

def name : DatumPlane → String
  | xy => "Top"
  | xz => "Front"
  | yz => "Right"

/-- The plane itself: top with normal +Z, front with normal -Y, right with normal +X. -/
def plane (d : DatumPlane) : Plane :=
  let x : Vec3 := ⟨1.0, 0.0, 0.0⟩
  let y : Vec3 := ⟨0.0, 1.0, 0.0⟩
  let z : Vec3 := ⟨0.0, 0.0, 1.0⟩
  match d with
  | xy => ⟨d.id, d.name, .zero, z, x, y⟩
  | xz => ⟨d.id, d.name, .zero, ⟨0.0, -1.0, 0.0⟩, x, z⟩
  | yz => ⟨d.id, d.name, .zero, x, y, z⟩

end DatumPlane

namespace Plane

def make (fresh : PlaneId) (name : String) (origin normal xAxis : Vec3) : Plane :=
  let normal := normal.normalize
  let xAxis := xAxis.normalize
  ⟨fresh, name, origin, normal, xAxis, normal.cross xAxis⟩

end Plane

structure Axis where
  origin : Vec3
  direction : Vec3
  deriving BEq, DecidableEq, Repr

def Axis.make (origin direction : Vec3) : Axis :=
  ⟨origin, direction.normalize⟩

inductive AxisChoice where
  | worldX
  | worldY
  | sketchX
  | sketchY
  deriving DecidableEq, Repr

/-- The axis of a choice, with local axes taken from a plane. -/
def AxisChoice.resolve (choice : AxisChoice) (plane : Plane) : Axis :=
  match choice with
  | worldX => .make .zero ⟨1.0, 0.0, 0.0⟩
  | worldY => .make .zero ⟨0.0, 1.0, 0.0⟩
  | sketchX => .make plane.origin plane.xAxis
  | sketchY => .make plane.origin plane.yAxis

end Parametric
