/-! The decimal with the fewest digits that denotes a binary64 number.

A finite number is m · 2^q. The reals that round to it form an interval around
it, whose ends belong to it when m is even. For one, two, ... seventeen
significant digits the two decimals next to the number are tried in exact
natural-number arithmetic; the first count of digits that has a decimal inside
the interval is taken, and of two decimals the nearer one. Which of two equally
near ones is taken depends on the written form.
-/

set_option autoImplicit false

namespace Parametric

/-- The nonnegative number `digits * 10 ^ exponent`. -/
structure Decimal where
  digits : Nat
  exponent : Int
  deriving DecidableEq, Repr

namespace Decimal

def text (d : Decimal) : List Char :=
  Nat.toDigits 10 d.digits

/-- Where the decimal point stands relative to the first significant digit:
`d` is 0.ddd · 10 ^ `point`. -/
def point (d : Decimal) : Int :=
  d.exponent + d.text.length

def trimZeros : Nat → Decimal → Decimal
  | 0, d => d
  | fuel + 1, d =>
    if d.digits ≠ 0 ∧ d.digits % 10 = 0 then trimZeros fuel ⟨d.digits / 10, d.exponent + 1⟩ else d

end Decimal

inductive Tie where
  | toLarger
  | toEven
  deriving DecidableEq, Repr

structure Binary where
  mantissa : Nat
  exponent : Int
  narrowBelow : Bool
  deriving DecidableEq, Repr

namespace Binary

def ofFloat (x : Float) : Binary :=
  let bits := x.toBits.toNat
  let field := bits / Nat.pow 2 52 % Nat.pow 2 11
  let fraction := bits % Nat.pow 2 52
  if field = 0 then ⟨fraction, -1074, false⟩
  else ⟨Nat.pow 2 52 + fraction, Int.ofNat field - 1075, fraction = 0 ∧ 1 < field⟩

/-- The reals that round to a number, all over the common denominator `unit`. -/
structure Interval where
  low : Nat
  value : Nat
  high : Nat
  unit : Nat
  closed : Bool

def interval (b : Binary) : Interval :=
  let up := Nat.pow 2 b.exponent.toNat
  let down := Nat.pow 2 (-b.exponent).toNat
  -- In quarters of the last binary place an end is two away, or one where the gap below
  -- is half as wide.
  { low := (4 * b.mantissa - if b.narrowBelow then 1 else 2) * up
    value := 4 * b.mantissa * up
    high := (4 * b.mantissa + 2) * up
    unit := 4 * down
    closed := b.mantissa % 2 = 0 }

end Binary

namespace Binary.Interval

/-- Whether `digits * 10 ^ exponent` rounds to the number. -/
def holds (i : Interval) (digits : Nat) (exponent : Int) : Bool :=
  let candidate := digits * Nat.pow 10 exponent.toNat * i.unit
  let scale := Nat.pow 10 (-exponent).toNat
  if i.closed then i.low * scale ≤ candidate ∧ candidate ≤ i.high * scale
  else i.low * scale < candidate ∧ candidate < i.high * scale

def below (i : Interval) (exponent : Int) : Nat :=
  i.value * Nat.pow 10 (-exponent).toNat / (i.unit * Nat.pow 10 exponent.toNat)

def roundsUp (i : Interval) (tie : Tie) (exponent : Int) : Bool :=
  let whole := i.unit * Nat.pow 10 exponent.toNat
  let twice := 2 * (i.value * Nat.pow 10 (-exponent).toNat % whole)
  whole < twice || whole = twice && match tie with
    | .toLarger => true
    | .toEven => i.below exponent % 2 = 1

/-- The decimal of the grid `10 ^ exponent` that denotes the number, if there is one;
of two such decimals the nearer. -/
def onGrid (i : Interval) (tie : Tie) (exponent : Int) : Option Decimal :=
  let floor := i.below exponent
  match i.holds floor exponent, i.holds (floor + 1) exponent with
  | true, true => some ⟨if i.roundsUp tie exponent then floor + 1 else floor, exponent⟩
  | true, false => some ⟨floor, exponent⟩
  | false, true => some ⟨floor + 1, exponent⟩
  | false, false => none

/-- An exponent p with 10 ^ (p - 1) ≤ number < 10 ^ p, found from `guess` by at most
`fuel` corrections. -/
def magnitude (i : Interval) : Nat → Int → Int
  | 0, guess => guess
  | fuel + 1, guess =>
    if i.unit * Nat.pow 10 guess.toNat ≤ i.value * Nat.pow 10 (-guess).toNat then
      magnitude i fuel (guess + 1)
    else if i.value * Nat.pow 10 (1 - guess).toNat < i.unit * Nat.pow 10 (guess - 1).toNat then
      magnitude i fuel (guess - 1)
    else guess

/-- The first hit among the grids of `count`, `count + 1`, ... significant digits. -/
def firstHit (i : Interval) (tie : Tie) (top : Int) : Nat → Nat → Option Decimal
  | 0, _ => none
  | fuel + 1, count =>
    match i.onGrid tie (top - count) with
    | some d => some d
    | none => firstHit i tie top fuel (count + 1)

end Binary.Interval

/-- The shortest decimal that denotes the magnitude of a finite number. -/
def Decimal.shortest (tie : Tie) (x : Float) : Decimal :=
  let b := Binary.ofFloat x
  if b.mantissa = 0 then ⟨0, 0⟩
  else
    let i := b.interval
    -- The decimal logarithm of 2 is close to 0.30103, so the guess is a few places off at most.
    let guess := (b.exponent + b.mantissa.log2) * 30103 / 100000 + 1
    let top := i.magnitude 8 guess
    ((i.firstHit tie top 17 1).getD ⟨i.below (top - 17), top - 17⟩).trimZeros 20

end Parametric
