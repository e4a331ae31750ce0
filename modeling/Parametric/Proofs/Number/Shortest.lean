import Parametric.Proofs.Number.Reading
/-! The shortest decimal of a number is nearest to it.

Seventeen digits are always enough: their grid is finer than the interval around
the number. So the search ends with a decimal inside the interval.
-/

set_option autoImplicit false

namespace Parametric

open Rounding

/-! ## Powers of two and of ten -/

theorem zpow_mul_comm {a : Rat} (m n : Int) : (a ^ m) ^ n = (a ^ n) ^ m := by
  rw [← zpow_mul, ← zpow_mul, mul_comm]

-- As `10 ^ 28` is above `2 ^ 93` and `10 ^ 3` below `2 ^ 10`, powers of ten and of two in order
-- have exponents in nearly the same order. These bounds are close enough for all exponents of
-- binary64.
theorem exponents_of_ten_lt_two {a b : Int} (lt : (10 : Rat) ^ a < 2 ^ b) :
    (0 ≤ a → 93 * a < 28 * b) ∧ (a ≤ 0 → 10 * a < 3 * b) := by
  constructor
  · intro nonneg
    have power : ((2 : Rat) ^ (93 : Int)) ^ a ≤ (10 ^ (28 : Int)) ^ a :=
      zpow_le_zpow_left₀ nonneg (by positivity) (by norm_num)
    have raised : ((10 : Rat) ^ a) ^ (28 : Int) < (2 ^ b) ^ (28 : Int) :=
      zpow_lt_zpow_left₀ (by norm_num) (by positivity) lt
    rw [zpow_mul_comm (28 : Int)] at power
    have all := power.trans_lt raised
    rw [← zpow_mul, ← zpow_mul, two_zpow_lt] at all
    omega
  · intro nonpos
    have power : ((2 : Rat) ^ (10 : Int)) ^ a ≤ (10 ^ (3 : Int)) ^ a :=
      zpow_le_zpow_of_nonpos (by positivity) (by norm_num) nonpos
    have raised : ((10 : Rat) ^ a) ^ (3 : Int) < (2 ^ b) ^ (3 : Int) :=
      zpow_lt_zpow_left₀ (by norm_num) (by positivity) lt
    rw [zpow_mul_comm (3 : Int)] at power
    have all := power.trans_lt raised
    rw [← zpow_mul, ← zpow_mul, two_zpow_lt] at all
    omega

theorem exponents_of_two_lt_ten {a b : Int} (lt : (2 : Rat) ^ b < 10 ^ a) :
    (0 ≤ a → 3 * b < 10 * a) ∧ (a ≤ 0 → 28 * b < 93 * a) := by
  constructor
  · intro nonneg
    have power : ((10 : Rat) ^ (3 : Int)) ^ a ≤ (2 ^ (10 : Int)) ^ a :=
      zpow_le_zpow_left₀ nonneg (by positivity) (by norm_num)
    have raised : ((2 : Rat) ^ b) ^ (3 : Int) < (10 ^ a) ^ (3 : Int) :=
      zpow_lt_zpow_left₀ (by norm_num) (by positivity) lt
    rw [zpow_mul_comm (3 : Int)] at power
    have all := raised.trans_le power
    rw [← zpow_mul, ← zpow_mul, two_zpow_lt] at all
    omega
  · intro nonpos
    have power : ((10 : Rat) ^ (28 : Int)) ^ a ≤ (2 ^ (93 : Int)) ^ a :=
      zpow_le_zpow_of_nonpos (by positivity) (by norm_num) nonpos
    have raised : ((2 : Rat) ^ b) ^ (28 : Int) < (10 ^ a) ^ (28 : Int) :=
      zpow_lt_zpow_left₀ (by norm_num) (by positivity) lt
    rw [zpow_mul_comm (28 : Int)] at power
    have all := raised.trans_le power
    rw [← zpow_mul, ← zpow_mul, two_zpow_lt] at all
    omega

/-! ## The magnitude -/

namespace Binary

variable {b : Binary}

/-- The number that a mantissa and an exponent stand for. -/
def toRat (b : Binary) : Rat :=
  b.mantissa * 2 ^ b.exponent

theorem interval_value (b : Binary) : (b.interval.value : Rat) / b.interval.unit = b.toRat := by
  have power := zpow_eq_div 2 b.exponent
  push_cast at power
  simp only [interval, toRat, Nat.pow_eq, power]
  push_cast
  field_simp

theorem unit_pos (b : Binary) : (0 : Rat) < b.interval.unit := by
  simp only [interval, Nat.pow_eq]
  positivity

namespace Interval

theorem le_magnitude_iff (e : Int) :
    b.interval.unit * Nat.pow 10 e.toNat ≤ b.interval.value * Nat.pow 10 (-e).toNat ↔
      10 ^ e ≤ b.toRat := by
  have power := zpow_eq_div 10 e
  push_cast at power
  rw [← interval_value, power, div_le_div_iff₀ (by positivity) b.unit_pos, Nat.pow_eq, Nat.pow_eq,
    mul_comm _ (b.interval.unit : Rat)]
  norm_cast

theorem lt_magnitude_iff (e : Int) :
    b.interval.value * Nat.pow 10 (-e).toNat < b.interval.unit * Nat.pow 10 e.toNat ↔
      b.toRat < 10 ^ e := by
  rw [← not_le, le_magnitude_iff, not_le]

theorem magnitude_eq {p : Int} (low : 10 ^ (p - 1) ≤ b.toRat) (high : b.toRat < 10 ^ p)
    (fuel : Nat) (guess : Int) (close : guess - p ≤ fuel ∧ p - guess ≤ fuel) :
    b.interval.magnitude fuel guess = p := by
  induction fuel generalizing guess with
  | zero =>
    rw [magnitude]
    omega
  | succ fuel ih =>
    rw [magnitude, show (1 - guess) = -(guess - 1) by ring]
    simp only [le_magnitude_iff, lt_magnitude_iff]
    split_ifs with up down
    · have below := Decimal.ten_zpow_lt.mp (up.trans_lt high)
      exact ih (guess + 1) (by omega)
    · have above := Decimal.ten_zpow_lt.mp (low.trans_lt down)
      exact ih (guess - 1) (by omega)
    · have below := Decimal.ten_zpow_lt.mp ((not_le.mp up).trans_le' low)
      have above := Decimal.ten_zpow_lt.mp ((not_lt.mp down).trans_lt high)
      omega

end Interval

/-- The guess from the binary exponent is at most a few places off. -/
theorem guess_close {p : Int} (canonical : Canonical b.mantissa b.exponent)
    (bounded : b.exponent ≤ 971) (low : 10 ^ (p - 1) ≤ b.toRat) (high : b.toRat < 10 ^ p) :
    (b.exponent + b.mantissa.log2) * 30103 / 100000 + 1 - p ≤ (8 : Nat) ∧
      p - ((b.exponent + b.mantissa.log2) * 30103 / 100000 + 1) ≤ (8 : Nat) := by
  have least := canonical.least
  have bits := (Nat.log2_lt canonical.positive.ne').mpr canonical.bounded
  have under := (le_totalExponent canonical.positive le_rfl b.exponent).trans_lt high
  have above := low.trans_lt (lt_totalExponent (lt_add_one _) b.exponent)
  have lower := exponents_of_two_lt_ten under
  have upper := exponents_of_ten_lt_two above
  unfold Float.Model.totalExponent at lower upper
  constructor
  · by_cases sign : 0 ≤ p
    · have := lower.1 sign
      omega
    · have := lower.2 (by omega)
      omega
  · by_cases sign : 0 ≤ p - 1
    · have := upper.1 sign
      omega
    · have := upper.2 (by omega)
      omega

/-! ## Decimals on a grid -/

namespace Interval

theorem below_le (e : Int) : (b.interval.below e : Rat) * 10 ^ e ≤ b.toRat ∧
    b.toRat < (b.interval.below e + 1 : Nat) * 10 ^ e := by
  have power := zpow_eq_div 10 e
  have unit := b.unit_pos
  have quotient : b.toRat / 10 ^ e =
      (b.interval.value * 10 ^ (-e).toNat : Nat) / (b.interval.unit * 10 ^ e.toNat : Nat) := by
    push_cast at power ⊢
    rw [← interval_value, power, div_div_div_eq]
  have positive : 0 < b.interval.unit * 10 ^ e.toNat :=
    Nat.mul_pos (Nat.cast_pos.mp unit) (by positivity)
  have scale : (0 : Rat) < 10 ^ e := by positivity
  have whole : b.interval.below e =
      b.interval.value * 10 ^ (-e).toNat / (b.interval.unit * 10 ^ e.toNat) := rfl
  rw [← le_div_iff₀ scale, ← div_lt_iff₀ scale, quotient, whole]
  generalize b.interval.value * 10 ^ (-e).toNat = numerator
  generalize b.interval.unit * 10 ^ e.toNat = denominator at positive ⊢
  have positive' : (0 : Rat) < denominator := Nat.cast_pos.mpr positive
  rw [le_div_iff₀ positive', div_lt_iff₀ positive']
  have upper := Nat.lt_mul_div_succ numerator positive
  rw [mul_comm] at upper
  exact ⟨by exact_mod_cast Nat.div_mul_le_self numerator denominator, by exact_mod_cast upper⟩

variable {i : Interval} {tie : Tie} {e : Int}

theorem onGrid_holds {d : Decimal} (found : i.onGrid tie e = some d) :
    i.holds d.digits d.exponent = true := by
  simp only [onGrid] at found
  split at found
  · next floor next =>
    cases found
    split_ifs
    · exact next
    · exact floor
  · next floor next =>
    cases found
    exact floor
  · next floor next =>
    cases found
    exact next
  · cases found

theorem exists_onGrid (tie : Tie)
    (held : i.holds (i.below e) e = true ∨ i.holds (i.below e + 1) e = true) :
    ∃ d, i.onGrid tie e = some d := by
  simp only [onGrid]
  rcases held with floor | next
  · rw [floor]
    split <;> simp_all
  · rw [next]
    split <;> simp_all

theorem firstHit_holds {top : Int} {count fuel last : Nat}
    (reached : count ≤ last ∧ last < count + fuel) {d : Decimal}
    (found : i.onGrid tie (top - last) = some d) :
    ∃ hit, i.firstHit tie top fuel count = some hit ∧ i.holds hit.digits hit.exponent = true := by
  induction fuel generalizing count with
  | zero => omega
  | succ fuel ih =>
    rw [firstHit]
    cases here : i.onGrid tie (top - count) with
    | some hit => exact ⟨hit, rfl, onGrid_holds here⟩
    | none =>
      -- Nothing is found with so few digits, so the place of the known hit is still ahead.
      have later : count ≠ last := by
        rintro rfl
        rw [found] at here
        cases here
      exact ih (by omega)

end Interval

/-- One of two neighbours on a grid of seventeen digits is nearest to the number. -/
theorem nearest_of_seventeen {m floor : Nat} {q p : Int} (canonical : Canonical m q)
    (low : 10 ^ (p - 1) ≤ (m * 2 ^ q : Rat))
    (under : (floor : Rat) * 10 ^ (p - (17 : Nat)) ≤ m * 2 ^ q)
    (above : (m * 2 ^ q : Rat) < (floor + 1 : Nat) * 10 ^ (p - (17 : Nat))) :
    Nearest m q (floor * 10 ^ (p - (17 : Nat))) ∨
      Nearest m q ((floor + 1 : Nat) * 10 ^ (p - (17 : Nat))) := by
  have scale := two_zpow_pos q
  have grid : (10 : Rat) ^ (p - 1) = 10 ^ (16 : Nat) * 10 ^ (p - (17 : Nat)) := by
    rw [Decimal.natCast_mul_ten_zpow]
    congr 1
    push_cast
    ring
  rw [grid] at low
  generalize (10 : Rat) ^ (p - (17 : Nat)) = g at *
  generalize atPower : (2 : Rat) ^ q = s at *
  -- The grid is finer than the interval is wide, so if the lower neighbour falls out of it,
  -- the upper one does not.
  have spacing : g < (1 / 2 + reach m q) * s := by
    unfold reach
    split_ifs with narrow
    · rw [narrow.1] at low
      push_cast at low
      linarith
    · have bounded : (m : Rat) < 2 ^ 53 := by exact_mod_cast canonical.bounded
      have product : (m : Rat) * s < 2 ^ 53 * s := mul_lt_mul_of_pos_right bounded scale
      linarith
  have gap := mul_pos (reach_pos m q) scale
  push_cast at above ⊢
  rcases lt_or_ge (((m : Rat) - reach m q) * s) (floor * g) with close | far
  · exact .inl (nearest_of_lt (atPower ▸ close) (atPower ▸ by linarith))
  · exact .inr (nearest_of_lt (atPower ▸ by linarith) (atPower ▸ by linarith))

end Binary

namespace Decimal

theorem trimZeros_toRat (fuel : Nat) (d : Decimal) : (d.trimZeros fuel).toRat = d.toRat := by
  induction fuel generalizing d with
  | zero => rfl
  | succ fuel ih =>
    rw [trimZeros]
    split_ifs with divisible
    · rw [ih, toRat, toRat, zpow_add_one₀ (by norm_num), mul_comm ((10 : Rat) ^ d.exponent),
        ← mul_assoc]
      have whole : d.digits / 10 * 10 = d.digits := by omega
      have whole : ((d.digits / 10 : Nat) : Rat) * 10 = d.digits := by exact_mod_cast whole
      rw [whole]
    · rfl

/-- The shortest decimal of a number is nearest to it. -/
theorem shortest_nearest (tie : Tie) {x : Float} (finite : x.isFinite = true)
    (positive : 0 < (Binary.ofFloat x).mantissa) :
    Nearest (Binary.ofFloat x).mantissa (Binary.ofFloat x).exponent
      (shortest tie x).toRat := by
  have canonical := Binary.canonical positive
  have bounded := Binary.exponent_le finite
  have narrow := Binary.narrowBelow_iff (x := x)
  generalize fields : Binary.ofFloat x = b at *
  have some : 0 < b.toRat := mul_pos (by exact_mod_cast positive) (two_zpow_pos _)
  obtain ⟨p, low, high⟩ := exists_mem_Ico_zpow some (by norm_num : (1 : Rat) < 10)
  have low' : (10 : Rat) ^ (p + 1 - 1) ≤ b.toRat := by simpa using low
  have top := Binary.Interval.magnitude_eq low' high 8 _
    (Binary.guess_close canonical bounded low' high)
  obtain ⟨under, above⟩ := Binary.Interval.below_le (b := b) (p + 1 - (17 : Nat))
  have held := Binary.nearest_of_seventeen canonical low' under above
  have grid (n : Nat) : Nearest b.mantissa b.exponent (n * 10 ^ (p + 1 - (17 : Nat))) ↔
      b.interval.holds n (p + 1 - (17 : Nat)) = true :=
    (Binary.interval_holds_iff positive narrow ⟨n, p + 1 - (17 : Nat)⟩).symm
  rw [grid, grid] at held
  obtain ⟨d, found⟩ := Binary.Interval.exists_onGrid tie held
  obtain ⟨hit, first, holds⟩ := Binary.Interval.firstHit_holds
    (by omega : 1 ≤ 17 ∧ 17 < 1 + 17) found
  have chosen : shortest tie x = hit.trimZeros 20 := by
    unfold shortest
    simp only [fields, positive.ne', if_false, top, first, Option.getD_some]
  rw [chosen, trimZeros_toRat]
  exact (Binary.interval_holds_iff positive narrow hit).mp holds

end Decimal

end Parametric
