import Parametric.Text.Hexadecimal
/-! Identifiers of parameters, features and geometry.

An identifier is a 128-bit number, indexed by the kind of thing it names.
Fresh identifiers are always supplied from outside.
-/

set_option autoImplicit false

namespace Parametric

inductive IdKind where
  | parameter
  | op
  | sketch
  | primitive
  | plane
  | studio
  deriving DecidableEq, Repr

structure Id (kind : IdKind) where
  bits : BitVec 128
  deriving DecidableEq, Repr

abbrev ParameterId := Id .parameter
abbrev OpId := Id .op
abbrev SketchId := Id .sketch
abbrev PrimitiveId := Id .primitive
abbrev PlaneId := Id .plane
abbrev StudioId := Id .studio

namespace Id

variable {kind : IdKind}

instance : Ord (Id kind) where
  compare a b := compare a.bits b.bits

theorem compare_eq (a b : Id kind) : compare a b = compare a.bits b.bits := rfl

instance : Std.TransOrd (Id kind) where
  eq_swap {a b} := by rw [compare_eq, compare_eq]; exact Std.OrientedCmp.eq_swap
  isLE_trans {a b c} first second := by
    rw [compare_eq] at first second ⊢
    exact Std.TransCmp.isLE_trans first second

instance : Std.LawfulEqOrd (Id kind) where
  compare_self {a} := by rw [compare_eq]; exact Std.ReflCmp.compare_self
  eq_of_compare {a b} same := by
    rw [compare_eq] at same
    have bits : a.bits = b.bits := Std.LawfulEqCmp.eq_of_compare same
    cases a; cases b; simp_all

def groups : List Nat := [8, 4, 4, 4, 12]

def hyphenate : List Nat → List Char → List Char
  | [], cs => cs
  | [_], cs => cs
  | size :: sizes, cs => cs.take size ++ '-' :: hyphenate sizes (cs.drop size)

def text (id : Id kind) : String :=
  String.ofList (hyphenate groups (Text.hexDigits 32 id.bits.toNat))

instance : ToString (Id kind) := ⟨text⟩

def unhyphenate? : List Nat → List Char → Option (List Char)
  | [], _ => none
  | [size], cs => if cs.length = size then some cs else none
  | size :: sizes, cs => match cs.drop size with
    | '-' :: rest => (unhyphenate? sizes rest).map (cs.take size ++ ·)
    | _ => none

/-- Strip the wrapping of a hyphenated form: braces, a name-space word in any case, or none. -/
def unwrap? (cs : List Char) : Option (List Char) :=
  if cs.length = 36 then some cs
  else if cs.length = 38 ∧ cs.head? = some '{' ∧ cs.getLast? = some '}' then
    some ((cs.drop 1).take 36)
  else if cs.length = 45 ∧ (cs.take 9).map Char.toLower = "urn:uuid:".toList then some (cs.drop 9)
  else none

/-- Read 32 digits, or the hyphenated form, plain, in braces or after `urn:uuid:`. -/
def ofText? (s : String) : Option (Id kind) :=
  let cs := s.toList
  let digits := if cs.length = 32 then some cs else (unwrap? cs).bind (unhyphenate? groups)
  (digits.bind Text.hexNumber?).map fun value => ⟨BitVec.ofNat 128 value⟩

def ofNat (value : Nat) : Id kind :=
  ⟨BitVec.ofNat 128 value⟩

end Id

end Parametric
