import Parametric.Number.Text
import Parametric.Plane
import Parametric.SortedMap
/-! Sketches: points, and curves defined by points, on a plane.

A sketch also keeps positions that a solver computed. They are dropped when the
geometry they were computed for is moved or removed. A call that changes a sketch
may be refused; what it leaves of the sketch is part of what it does.
-/

set_option autoImplicit false

namespace Parametric

inductive Shape where
  | point (x y : Float)
  | line (start finish : PrimitiveId)
  | circle (center : PrimitiveId) (radius : Float)
  | arc (center start finish : PrimitiveId) (clockwise : Bool)
  deriving BEq, DecidableEq, Repr

/-- A shape of a sketch; construction geometry takes no part in profiles. -/
structure Primitive where
  shape : Shape
  construction : Bool
  deriving BEq, DecidableEq, Repr

namespace Primitive

def typeName (p : Primitive) : String :=
  match p.shape with
  | .point .. => "Point"
  | .line .. => "Line"
  | .circle .. => "Circle"
  | .arc .. => "Arc"

def isPoint (p : Primitive) : Bool :=
  match p.shape with
  | .point .. => true
  | _ => false

/-- The primitives that define this one. -/
def references (p : Primitive) : List PrimitiveId :=
  match p.shape with
  | .point .. => []
  | .line start finish => [start, finish]
  | .circle center _ => [center]
  | .arc center start finish _ => [center, start, finish]

end Primitive

inductive SketchError where
  | missingPrimitive (id : PrimitiveId)
  | notAPoint (id : PrimitiveId)
  | invalidRadius (radius : Float)
  deriving DecidableEq, Repr

def SketchError.message : SketchError → String
  | missingPrimitive id => "Primitive not found: " ++ id.text
  | notAPoint id => "Primitive " ++ id.text ++ " is not a point"
  | invalidRadius radius => "Invalid radius: " ++ NumberForm.plain.write radius

structure Sketch where
  id : SketchId
  name : String
  plane : PlaneId
  primitives : SortedMap PrimitiveId Primitive
  solved : SortedMap PrimitiveId Vec2
  deriving BEq, DecidableEq

namespace Sketch

def new (fresh : SketchId) (name : String) (plane : PlaneId) : Sketch :=
  ⟨fresh, name, plane, .empty, .empty⟩

def get? (s : Sketch) (id : PrimitiveId) : Option Primitive :=
  s.primitives.get? id

def requirePoint (s : Sketch) (id : PrimitiveId) : Except SketchError Unit :=
  match s.get? id with
  | none => .error (.missingPrimitive id)
  | some p => if p.isPoint then .ok () else .error (.notAPoint id)

def place (s : Sketch) (fresh : PrimitiveId) (shape : Shape) : Sketch :=
  { s with primitives := s.primitives.insert fresh ⟨shape, false⟩ }

def addPoint (s : Sketch) (fresh : PrimitiveId) (x y : Float) : Sketch :=
  s.place fresh (.point x y)

def referencing (s : Sketch) (id : PrimitiveId) : List PrimitiveId :=
  (s.primitives.entries.filter fun e => id ∈ e.2.references).map (·.1)

/-- Drop the solved positions of a primitive and of those it defines directly. -/
def invalidate (s : Sketch) (id : PrimitiveId) : Sketch :=
  let affected := id :: s.referencing id
  { s with solved := affected.foldl (fun solved other => solved.erase other) s.solved }

def drop (s : Sketch) (id : PrimitiveId) : Sketch :=
  { s with primitives := s.primitives.erase id, solved := s.solved.erase id }

theorem size_drop_lt (s : Sketch) (id : PrimitiveId) (present : (s.get? id).isSome) :
    (s.drop id).primitives.size < s.primitives.size := by
  have shorter : ∀ entries : List (PrimitiveId × Primitive),
      (SortedMap.find id entries).isSome →
        (entries.filter fun e => compare id e.1 != .eq).length < entries.length := by
    intro entries
    induction entries with
    | nil => simp [SortedMap.find]
    | cons head rest ih =>
      obtain ⟨k, v⟩ := head
      intro found
      by_cases same : compare id k = .eq
      · have := List.length_filter_le
          (fun e : PrimitiveId × Primitive => compare id e.1 != .eq) rest
        simp only [List.filter_cons, same, bne_self_eq_false, Bool.false_eq_true, ↓reduceIte,
          List.length_cons]
        omega
      · have := ih (by simpa [SortedMap.find, same] using found)
        simp only [List.filter_cons, bne_iff_ne, ne_eq, same, not_false_eq_true, ↓reduceIte,
          List.length_cons]
        omega
  exact shorter s.primitives.entries present

/-- Remove the primitives that wait, the last one first, and whatever they define; the
answer lists what was removed, in order. -/
def removePending (s : Sketch) (pending : List PrimitiveId) : List PrimitiveId × Sketch :=
  match pending with
  | [] => ([], s)
  | id :: rest =>
    if _present : (s.get? id).isSome then
      let smaller := s.drop id
      -- The largest of the primitives that lost a reference comes first.
      let (removed, final) := smaller.removePending ((smaller.referencing id).reverse ++ rest)
      (id :: removed, final)
    else s.removePending rest
termination_by (s.primitives.size, pending.length)
decreasing_by
  · exact Prod.Lex.left _ _ (s.size_drop_lt id _present)
  · exact Prod.Lex.right _ (by simp)

def remove (s : Sketch) (id : PrimitiveId) : List PrimitiveId × Sketch :=
  s.removePending [id]

def danglingReferences (s : Sketch) : List (PrimitiveId × PrimitiveId) :=
  s.primitives.entries.flatMap fun e =>
    (e.2.references.filter fun r => !s.primitives.contains r).map (e.1, ·)

/-- Keep solved positions; those of unknown primitives are ignored. -/
def setSolved (s : Sketch) (positions : List (PrimitiveId × Vec2)) : Sketch :=
  { s with solved := positions.foldl (fun solved e =>
      if s.primitives.contains e.1 then solved.insert e.1 e.2 else solved) s.solved }

def clearSolved (s : Sketch) : Sketch :=
  { s with solved := .empty }

def solvedPosition? (s : Sketch) (id : PrimitiveId) : Option Vec2 :=
  s.solved.get? id

def position? (s : Sketch) (id : PrimitiveId) : Option Vec2 :=
  match s.solvedPosition? id, s.get? id with
  | some position, _ => some position
  | none, some ⟨.point x y, _⟩ => some ⟨x, y⟩
  | none, _ => none

/-! ## Calls that may be refused -/

/-- An answer or an error, with the sketch that is left in either case. -/
abbrev Call (α : Type) := ExceptT SketchError (StateM Sketch) α

namespace Call

def check (test : Sketch → Except SketchError Unit) : Call Unit := fun s => (test s, s)

def addLine (fresh start finish : PrimitiveId) : Call Unit := do
  check (·.requirePoint start)
  check (·.requirePoint finish)
  modify (·.place fresh (.line start finish))

def addCircle (fresh center : PrimitiveId) (radius : Float) : Call Unit := do
  check (·.requirePoint center)
  if radius.isFinite && 0.0 < radius then modify (·.place fresh (.circle center radius))
  else throw (.invalidRadius radius)

def addArc (fresh center start finish : PrimitiveId) (clockwise : Bool) : Call Unit := do
  check (·.requirePoint center)
  check (·.requirePoint start)
  check (·.requirePoint finish)
  modify (·.place fresh (.arc center start finish clockwise))

def movePoint (id : PrimitiveId) (x y : Float) : Call Unit := do
  check (·.requirePoint id)
  modify fun s =>
    { s with primitives := s.primitives.modify id fun p => { p with shape := .point x y } }
  modify (·.invalidate id)

def setConstruction (id : PrimitiveId) (construction : Bool) : Call Unit := do
  match (← get).get? id with
  | none => throw (.missingPrimitive id)
  | some _ => modify fun s =>
      { s with primitives := s.primitives.modify id fun p => { p with construction } }

def outcome (call : Call Unit) (s : Sketch) : Except SketchError Sketch :=
  match call s with
  | (.ok _, next) => .ok next
  | (.error e, _) => .error e

end Call

def addLine (s : Sketch) (fresh start finish : PrimitiveId) : Except SketchError Sketch :=
  (Call.addLine fresh start finish).outcome s

def addCircle (s : Sketch) (fresh center : PrimitiveId) (radius : Float) :
    Except SketchError Sketch :=
  (Call.addCircle fresh center radius).outcome s

def addArc (s : Sketch) (fresh center start finish : PrimitiveId) (clockwise : Bool) :
    Except SketchError Sketch :=
  (Call.addArc fresh center start finish clockwise).outcome s

def movePoint (s : Sketch) (id : PrimitiveId) (x y : Float) : Except SketchError Sketch :=
  (Call.movePoint id x y).outcome s

def setConstruction (s : Sketch) (id : PrimitiveId) (construction : Bool) :
    Except SketchError Sketch :=
  (Call.setConstruction id construction).outcome s

end Sketch

end Parametric
