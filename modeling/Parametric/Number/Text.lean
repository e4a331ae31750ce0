import Parametric.Number.Shortest
/-! Written forms of binary64 numbers.

All forms but the fixed one write the shortest digits that read back as the
same number. They differ in which of two equally near decimals they take, in
when an exponent is used and how it looks, in whether a whole number keeps a
fraction, and in the words for what is not finite.
-/

set_option autoImplicit false

namespace Parametric

structure NumberForm where
  tie : Tie
  positional : Int → Bool
  signsExponent : Bool
  keepsFraction : Bool
  nonFinite : String → String

namespace NumberForm

def plain : NumberForm := ⟨.toLarger, fun _ => true, false, false, id⟩

/-- Saved files: as in the plain form, and a whole number shows that it is no integer. -/
def saved : NumberForm := ⟨.toLarger, fun _ => true, false, true, id⟩

/-- Vectors in listings: an exponent below 0.0001 and from 10^16 on. -/
def listed : NumberForm :=
  ⟨.toLarger, fun point => -3 ≤ point ∧ point ≤ 16, false, true, id⟩

/-- JSON: an exponent with a sign below 0.00001 and from 10^16 on; what is not finite is null. -/
def json : NumberForm :=
  ⟨.toEven, fun point => -4 ≤ point ∧ point ≤ 16, true, true, fun _ => "null"⟩

end NumberForm

namespace Decimal

def zeros (count : Int) : List Char :=
  List.replicate count.toNat '0'

def positional (d : Decimal) (keepsFraction : Bool) : List Char :=
  let digits := d.text
  let point := d.point
  if point ≤ 0 then '0' :: '.' :: (zeros (-point) ++ digits)
  else if point < digits.length then digits.take point.toNat ++ '.' :: digits.drop point.toNat
  else digits ++ zeros (point - digits.length) ++ if keepsFraction then ['.', '0'] else []

def scientific (d : Decimal) (signsExponent : Bool) : List Char :=
  match d.text with
  | [] => []
  | first :: rest =>
    let fraction := if rest.isEmpty then [] else '.' :: rest
    let sign := if signsExponent && 1 < d.point then ['+'] else []
    first :: fraction ++ 'e' :: (sign ++ (toString (d.point - 1)).toList)

end Decimal

namespace NumberForm

def isNegative (x : Float) : Bool :=
  x.toBits.toNat / Nat.pow 2 63 = 1

def chars (form : NumberForm) (x : Float) : List Char :=
  if x.isNaN then (form.nonFinite "NaN").toList
  else if x.isInf then (form.nonFinite (if isNegative x then "-inf" else "inf")).toList
  else
    let d := Decimal.shortest form.tie x
    let magnitude :=
      if d.digits = 0 then if form.keepsFraction then ['0', '.', '0'] else ['0']
      else if form.positional d.point then d.positional form.keepsFraction
      else d.scientific form.signsExponent
    if isNegative x then '-' :: magnitude else magnitude

def write (form : NumberForm) (x : Float) : String :=
  String.ofList (form.chars x)

end NumberForm

def roundedQuotient (numerator denominator : Nat) : Nat :=
  let floor := numerator / denominator
  let rest := 2 * (numerator % denominator)
  if rest < denominator then floor
  else if denominator < rest then floor + 1
  else floor + floor % 2

/-- `x` with exactly `places` digits after the point, which must be positive. -/
def writeFixed (places : Nat) (x : Float) : String :=
  if x.isNaN then "NaN"
  else
    let sign := if NumberForm.isNegative x then "-" else ""
    if x.isInf then sign ++ "inf"
    else
      let i := (Binary.ofFloat x).interval
      let scaled := roundedQuotient (i.value * Nat.pow 10 places) i.unit
      let fraction := Nat.toDigits 10 (scaled % Nat.pow 10 places)
      let padded := List.replicate (places - fraction.length) '0' ++ fraction
      sign ++ toString (scaled / Nat.pow 10 places) ++ "." ++ String.ofList padded

end Parametric
