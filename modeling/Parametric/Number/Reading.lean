import Parametric.Number.Shortest
/-! Reading decimal text as the nearest binary64 number. -/

set_option autoImplicit false

namespace Parametric

def digitValue (c : Char) : Nat :=
  c.toNat - '0'.toNat

def digitsValue (digits : List Char) : Nat :=
  digits.foldl (fun value c => 10 * value + digitValue c) 0

namespace Decimal

/-- The nearest binary64 number, a tie to the even mantissa. Beyond 10^310 that is
infinity, and below 10^-330 zero, whatever the digits are. -/
def toFloat (d : Decimal) : Float :=
  if d.digits = 0 then 0.0
  else if 310 < d.point then 1.0 / 0.0
  else if d.point < -330 then 0.0
  else Float.ofScientific d.digits (d.exponent < 0) d.exponent.natAbs

end Decimal

structure Numeral where
  whole : List Char
  fraction : List Char
  exponent : Int
  deriving DecidableEq, Repr

namespace Numeral

def value (n : Numeral) : Float :=
  (Decimal.mk (digitsValue (n.whole ++ n.fraction)) (n.exponent - n.fraction.length)).toFloat

/-- An optional sign and at least one digit, nothing else. -/
def exponent? (cs : List Char) : Option Int :=
  let (negative, digits) := match cs with
    | '-' :: rest => (true, rest)
    | '+' :: rest => (false, rest)
    | rest => (false, rest)
  if digits.isEmpty || digits.any (!·.isDigit) then none
  else some (if negative then -(digitsValue digits : Int) else digitsValue digits)

def ofChars? (cs : List Char) : Option Numeral :=
  let whole := cs.takeWhile Char.isDigit
  let afterWhole := cs.dropWhile Char.isDigit
  let (fraction, rest) := match afterWhole with
    | '.' :: tail => (tail.takeWhile Char.isDigit, tail.dropWhile Char.isDigit)
    | tail => ([], tail)
  if whole.isEmpty && fraction.isEmpty then none
  else match rest with
    | [] => some ⟨whole, fraction, 0⟩
    | e :: tail =>
      if e = 'e' || e = 'E' then (exponent? tail).map (⟨whole, fraction, ·⟩) else none

end Numeral

def readMagnitude (cs : List Char) : Option Float :=
  let word := String.ofList (cs.map Char.toLower)
  if word = "inf" ∨ word = "infinity" then some (1.0 / 0.0)
  else if word = "nan" then some (0.0 / 0.0)
  else (Numeral.ofChars? cs).map Numeral.value

def readNumber (s : String) : Option Float :=
  match s.toList with
  | '-' :: cs => (readMagnitude cs).map (-·)
  | '+' :: cs => readMagnitude cs
  | cs => readMagnitude cs

end Parametric
