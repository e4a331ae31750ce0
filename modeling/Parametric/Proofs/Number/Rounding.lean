import Mathlib.Algebra.Order.Field.Power
import Mathlib.Tactic.FieldSimp
import Mathlib.Tactic.Linarith
import Mathlib.Tactic.Ring
/-! Rounding in binary64 arithmetic.

The model of binary64 keeps of an exact result its whole part at some power of
two, the half, and whether anything is left. That is enough to round to the
nearest even mantissa: every number in the interval around a binary64 number is
rounded to that number.
-/

set_option autoImplicit false

namespace Parametric.Rounding

open Float.Model Float.Model.UnpackedFloat

/-! ## What an extended mantissa stands for -/

/-- The whole part of a number, its half, and whether less than a half is left over. -/
def Describes (em : ExtendedMantissa) (y : Rat) : Prop :=
  ∃ rest : Rat, 0 ≤ rest ∧ rest < 1 / 2 ∧ (em.stickyBit = false ↔ rest = 0) ∧
    y = em.mantissa + (if em.roundBit then 1 / 2 else 0) + rest

variable {em : ExtendedMantissa} {y : Rat}

theorem Describes.le (describes : Describes em y) : (em.mantissa : Rat) ≤ y := by
  obtain ⟨rest, nonneg, _, _, rfl⟩ := describes
  split <;> linarith

theorem Describes.lt (describes : Describes em y) : y < em.mantissa + 1 := by
  obtain ⟨rest, _, small, _, rfl⟩ := describes
  split <;> linarith

theorem describes_exact (mantissa : Nat) :
    Describes (.ofMantissaAndAccuracy mantissa .exact) mantissa :=
  ⟨0, le_rfl, by norm_num, by simp [ExtendedMantissa.ofMantissaAndAccuracy],
    by simp [ExtendedMantissa.ofMantissaAndAccuracy]⟩

theorem describes_quotient (numerator : Nat) {denominator : Nat} (positive : 0 < denominator) :
    Describes (.ofMantissaAndAccuracy (numerator / denominator)
      (accuracyOfFraction (numerator % denominator) denominator))
      ((numerator : Rat) / denominator) := by
  have divided := Nat.div_add_mod numerator denominator
  have bound := Nat.mod_lt numerator positive
  generalize numerator / denominator = whole at *
  generalize numerator % denominator = left at *
  have positive' : (0 : Rat) < denominator := by exact_mod_cast positive
  have split : (numerator : Rat) / denominator = whole + (left : Rat) / denominator := by
    field_simp
    exact_mod_cast divided.symm
  rw [split]
  unfold accuracyOfFraction
  split_ifs with none
  · rw [none]
    simpa using describes_exact whole
  · have some : (0 : Rat) < (left : Rat) / denominator := by
      have left : (0 : Rat) < left := by exact_mod_cast Nat.pos_of_ne_zero none
      exact div_pos left positive'
    -- The remainder is compared with half of the denominator: less leaves a rest, equal is
    -- the half itself, and more is the half with a rest.
    cases order : compare (2 * left) denominator with
    | lt =>
      have below : (2 * left : Rat) < denominator := by
        exact_mod_cast Nat.compare_eq_lt.mp order
      refine ⟨(left : Rat) / denominator, some.le, ?_, ?_, ?_⟩
      · rw [div_lt_div_iff₀ positive' two_pos]
        linarith
      · simpa [ExtendedMantissa.ofMantissaAndAccuracy] using some.ne'
      · simp [ExtendedMantissa.ofMantissaAndAccuracy]
    | eq =>
      have half : (2 * left : Rat) = denominator := by
        exact_mod_cast Nat.compare_eq_eq.mp order
      refine ⟨0, le_rfl, by norm_num, ?_, ?_⟩
      · simp [ExtendedMantissa.ofMantissaAndAccuracy]
      · simp only [ExtendedMantissa.ofMantissaAndAccuracy, if_true, add_zero, add_right_inj]
        rw [div_eq_div_iff positive'.ne' two_ne_zero]
        linarith
    | gt =>
      have above : (denominator : Rat) < 2 * left := by
        exact_mod_cast Nat.compare_eq_gt.mp order
      have whole : (left : Rat) < denominator := by exact_mod_cast bound
      have more : 1 / 2 < (left : Rat) / denominator := by
        rw [div_lt_div_iff₀ two_pos positive']
        linarith
      have less : (left : Rat) / denominator < 1 := (div_lt_iff₀ positive').mpr (by linarith)
      refine ⟨(left : Rat) / denominator - 1 / 2, by linarith, by linarith, ?_, ?_⟩
      · have apart : (left : Rat) / denominator - 1 / 2 ≠ 0 := by linarith
        simpa [ExtendedMantissa.ofMantissaAndAccuracy] using apart
      · simp only [ExtendedMantissa.ofMantissaAndAccuracy, if_true]
        ring

theorem Describes.shiftRightOne (describes : Describes em y) :
    Describes em.shiftRightOne (y / 2) := by
  obtain ⟨rest, nonneg, small, sticky, rfl⟩ := describes
  refine ⟨(if em.roundBit then 1 / 4 else 0) + rest / 2, ?_, ?_, ?_, ?_⟩
  · split <;> linarith
  · split <;> linarith
  · cases half : em.roundBit
    · simp [ExtendedMantissa.shiftRightOne, half, sticky]
    · have apart : (1 / 4 : Rat) + rest / 2 ≠ 0 := by linarith
      simpa [ExtendedMantissa.shiftRightOne, half] using apart
  · -- The last bit of the mantissa becomes the half, and the old half is left over.
    have halves : (em.mantissa : Rat) = 2 * (em.mantissa / 2 : Nat) + (em.mantissa % 2 : Nat) := by
      exact_mod_cast (Nat.div_add_mod em.mantissa 2).symm
    have bit : em.mantissa % 2 = 0 ∨ em.mantissa % 2 = 1 := Nat.mod_two_eq_zero_or_one _
    rcases bit with even | odd
    · rw [even] at halves
      simp only [ExtendedMantissa.shiftRightOne, even]
      cases em.roundBit <;> simp [halves] <;> ring
    · rw [odd] at halves
      simp only [ExtendedMantissa.shiftRightOne, odd]
      cases em.roundBit <;> simp [halves] <;> ring

@[simp] theorem shiftRight_zero (em : ExtendedMantissa) : em >>> 0 = em := rfl

@[simp] theorem shiftRight_one (em : ExtendedMantissa) : em >>> 1 = em.shiftRightOne := rfl

theorem Describes.shiftRight (describes : Describes em y) (count : Nat) :
    Describes (em >>> count) (y / 2 ^ count) := by
  induction count with
  | zero => simpa using describes
  | succ count ih =>
    rw [pow_succ, ← div_div]
    exact ih.shiftRightOne

theorem Describes.roundedMantissa {n : Nat} (describes : Describes em y)
    (low : (n : Rat) - 1 / 2 ≤ y) (high : y ≤ n + 1 / 2)
    (even : y = n - 1 / 2 ∨ y = n + 1 / 2 → n % 2 = 0) : em.roundedMantissa = n := by
  obtain ⟨rest, nonneg, small, sticky, rfl⟩ := describes
  obtain ⟨mantissa, half, more⟩ := em
  cases half with
  | false =>
    simp only [Bool.false_eq_true, if_false, add_zero] at low high even
    have above : (n : Rat) < (mantissa + 1 : Nat) := by push_cast; linarith
    have below : (mantissa : Rat) < (n + 1 : Nat) := by push_cast; linarith
    have same : n = mantissa := by
      have above := Nat.cast_lt.mp above
      have below := Nat.cast_lt.mp below
      omega
    cases more <;> simp [same, ExtendedMantissa.roundedMantissa, ExtendedMantissa.accuracy,
      Accuracy.roundToNearestEven]
  | true =>
    simp only [if_true] at low high even
    have above : (n : Rat) < (mantissa + 2 : Nat) := by push_cast; linarith
    have below : (mantissa : Rat) ≤ n := by linarith
    have above := Nat.cast_lt.mp above
    have below := Nat.cast_le.mp below
    cases more with
    | false =>
      -- Nothing is left over, so this is the tie, and the even neighbour is meant.
      rw [sticky.mp rfl] at even
      have tie : n % 2 = 0 := by
        rcases (show n = mantissa ∨ n = mantissa + 1 by omega) with rfl | rfl
        · exact even (.inr (by ring))
        · exact even (.inl (by push_cast; ring))
      simp only [ExtendedMantissa.roundedMantissa, ExtendedMantissa.accuracy,
        Accuracy.roundToNearestEven]
      omega
    | true =>
      have left : rest ≠ 0 := fun zero => Bool.noConfusion (sticky.mpr zero)
      have apart : (mantissa : Rat) < n := by
        have positive : 0 < rest := lt_of_le_of_ne nonneg left.symm
        linarith
      have apart := Nat.cast_lt.mp apart
      simp only [ExtendedMantissa.roundedMantissa, ExtendedMantissa.accuracy,
        Accuracy.roundToNearestEven]
      omega

/-! ## Numbers that round to a given one -/

/-- A positive binary64 number `m * 2 ^ q` in canonical form: all bits of the mantissa are
used, unless the exponent is the least one. -/
structure Canonical (m : Nat) (q : Int) : Prop where
  positive : 0 < m
  bounded : m < 2 ^ 53
  least : -1074 ≤ q
  normal : 2 ^ 52 ≤ m ∨ q = -1074

/-- Whether the gap below is half the gap above. -/
def Narrow (m : Nat) (q : Int) : Prop :=
  m = 2 ^ 52 ∧ -1074 < q

instance (m : Nat) (q : Int) : Decidable (Narrow m q) :=
  inferInstanceAs (Decidable (_ ∧ _))

/-- Half the gap below a number, in units of its last place. -/
def reach (m : Nat) (q : Int) : Rat :=
  if Narrow m q then 1 / 4 else 1 / 2

/-- `x` is nearest to `m * 2 ^ q`, or half way to a neighbour and the mantissa is even. -/
structure Nearest (m : Nat) (q : Int) (x : Rat) : Prop where
  low : (m - reach m q) * 2 ^ q ≤ x
  high : x ≤ (m + 1 / 2) * 2 ^ q
  ends : x = (m - reach m q) * 2 ^ q ∨ x = (m + 1 / 2) * 2 ^ q → m % 2 = 0

theorem reach_le (m : Nat) (q : Int) : reach m q ≤ 1 / 2 := by
  unfold reach
  split <;> norm_num

theorem reach_pos (m : Nat) (q : Int) : 0 < reach m q := by
  unfold reach
  split <;> norm_num

theorem nearest_of_lt {m : Nat} {q : Int} {x : Rat} (low : (m - reach m q) * 2 ^ q < x)
    (high : x < (m + 1 / 2) * 2 ^ q) : Nearest m q x := by
  refine ⟨low.le, high.le, ?_⟩
  rintro (same | same)
  · exact absurd same low.ne'
  · exact absurd same high.ne

theorem targetExponent_eq (mantissa : Nat) (exponent : Int) :
    Format.binary64.targetExponent (totalExponent mantissa exponent) =
      max (mantissa.log2 + exponent - 52) (-1074) := by
  change max ((mantissa.log2 : Int) + 1 + exponent - 53) (3 - 2 ^ 10 - 53) = _
  omega

theorem two_zpow_pos (e : Int) : (0 : Rat) < 2 ^ e := by positivity

theorem two_zpow_lt {a b : Int} : (2 : Rat) ^ a < 2 ^ b ↔ a < b :=
  zpow_lt_zpow_iff_right₀ one_lt_two

theorem two_zpow_le {a b : Int} : (2 : Rat) ^ a ≤ 2 ^ b ↔ a ≤ b :=
  zpow_le_zpow_iff_right₀ one_lt_two

theorem natCast_mul_two_zpow (n : Nat) (e : Int) : (2 : Rat) ^ n * 2 ^ e = 2 ^ (n + e) := by
  rw [zpow_add₀ two_ne_zero, zpow_natCast]

theorem Canonical.high_lt {m : Nat} {q : Int} (canonical : Canonical m q) :
    ((m : Rat) + 1 / 2) * 2 ^ q < 2 ^ ((53 : Nat) + q) := by
  have bounded : (m : Rat) + 1 ≤ 2 ^ 53 := by exact_mod_cast canonical.bounded
  rw [← natCast_mul_two_zpow 53 q]
  exact mul_lt_mul_of_pos_right (by linarith) (two_zpow_pos q)

theorem le_totalExponent {mantissa : Nat} (positive : 0 < mantissa) (low : (mantissa : Rat) ≤ y)
    (e : Int) : (2 : Rat) ^ (totalExponent mantissa e - 1) ≤ y * 2 ^ e := by
  have power : (2 : Rat) ^ mantissa.log2 ≤ mantissa := by
    exact_mod_cast Nat.log2_self_le positive.ne'
  have exponents : totalExponent mantissa e - 1 = mantissa.log2 + e := by
    unfold totalExponent
    ring
  rw [exponents, ← natCast_mul_two_zpow]
  exact mul_le_mul_of_nonneg_right (power.trans low) (two_zpow_pos e).le

theorem lt_totalExponent {mantissa : Nat} (high : y < mantissa + 1) (e : Int) :
    y * 2 ^ e < (2 : Rat) ^ totalExponent mantissa e := by
  have power : ((mantissa + 1 : Nat) : Rat) ≤ 2 ^ (mantissa.log2 + 1) := by
    exact_mod_cast Nat.lt_log2_self
  have exponents : totalExponent mantissa e = (mantissa.log2 + 1 : Nat) + e := by
    unfold totalExponent
    push_cast
    ring
  rw [exponents, ← natCast_mul_two_zpow]
  push_cast at power
  exact mul_lt_mul_of_pos_right (by linarith) (two_zpow_pos e)

theorem Nearest.le_of_narrow {m : Nat} {q : Int} {x : Rat} (nearest : Nearest m q x)
    (narrow : Narrow m q) : (2 : Rat) ^ ((51 : Nat) + q) ≤ x := by
  have start := nearest.low
  rw [reach, if_pos narrow, narrow.1] at start
  refine le_trans ?_ start
  rw [← natCast_mul_two_zpow]
  exact mul_le_mul_of_nonneg_right (by norm_num) (two_zpow_pos q).le

theorem Nearest.le_of_wide {m : Nat} {q : Int} {x : Rat} (nearest : Nearest m q x)
    (full : 2 ^ 52 ≤ m) (inner : -1074 < q) (wide : ¬ Narrow m q) :
    (2 : Rat) ^ ((52 : Nat) + q) ≤ x := by
  have apart : m ≠ 2 ^ 52 := fun same => wide ⟨same, inner⟩
  have more : ((2 ^ 52 + 1 : Nat) : Rat) ≤ m := Nat.cast_le.mpr (by omega)
  have start := nearest.low
  rw [reach, if_neg wide] at start
  refine le_trans ?_ start
  rw [← natCast_mul_two_zpow]
  refine mul_le_mul_of_nonneg_right ?_ (two_zpow_pos q).le
  push_cast at more
  linarith

/-- The exponent that rounding shifts to is that of the nearest number, or one less below a
narrow gap. -/
theorem targetExponent_of_nearest {mantissa m : Nat} {exponent q top : Int}
    (canonical : Canonical m q) (nearest : Nearest m q (y * 2 ^ exponent))
    (low : (mantissa : Rat) ≤ y) (high : y < mantissa + 1)
    (above : 2 ^ top ≤ y * 2 ^ exponent) (fine : exponent ≤ max (top - 52) (-1074)) :
    exponent ≤ max (mantissa.log2 + exponent - 52) (-1074) ∧
    (max (mantissa.log2 + exponent - 52) (-1074) = q ∨
      max (mantissa.log2 + exponent - 52) (-1074) = q - 1 ∧ Narrow m q ∧
        y * 2 ^ exponent < m * 2 ^ q) := by
  have least := canonical.least
  have below := lt_totalExponent high exponent
  have total : totalExponent mantissa exponent = mantissa.log2 + exponent + 1 := by
    unfold totalExponent
    ring
  rw [total] at below
  have reached := two_zpow_lt.mp (above.trans_lt below)
  have fine' : exponent ≤ max (mantissa.log2 + exponent - 52) (-1074) := by omega
  have capped : mantissa.log2 + exponent - 52 ≤ q := by
    rcases Nat.eq_zero_or_pos mantissa with rfl | positive
    · simp only [Nat.log2_zero] at fine' ⊢
      omega
    · have within := le_totalExponent positive low exponent
      rw [total] at within
      have bound := two_zpow_lt.mp ((within.trans nearest.high).trans_lt canonical.high_lt)
      omega
  refine ⟨fine', ?_⟩
  -- At the least exponent the shift ends at that exponent. Otherwise the leading bit of the
  -- number is that of `m`, or the one below it if the gap is narrow.
  by_cases inner : -1074 < q
  · have full := canonical.normal.resolve_right inner.ne'
    by_cases narrow : Narrow m q
    · have bound := two_zpow_lt.mp ((nearest.le_of_narrow narrow).trans_lt below)
      by_cases same : max (mantissa.log2 + exponent - 52) (-1074) = q
      · exact .inl same
      · refine .inr ⟨by omega, narrow, below.trans_le ?_⟩
        rw [narrow.1, Nat.cast_pow, Nat.cast_ofNat, natCast_mul_two_zpow, two_zpow_le]
        omega
    · have bound := two_zpow_lt.mp ((nearest.le_of_wide full inner narrow).trans_lt below)
      exact .inl (by omega)
  · exact .inl (by omega)

theorem Canonical.target {m : Nat} {q : Int} (canonical : Canonical m q) :
    max ((m.log2 : Int) + q - 52) (-1074) = q := by
  have least := canonical.least
  have upper := (Nat.log2_lt canonical.positive.ne').mpr canonical.bounded
  rcases canonical.normal with full | lowest
  · have lower := (Nat.le_log2 canonical.positive.ne').mpr full
    omega
  · omega

theorem shiftToTargetExponent_eq {mantissa : Nat} {exponent target : Int} {accuracy : Accuracy}
    (reached : max (mantissa.log2 + exponent - 52) (-1074) = target) :
    shiftToTargetExponent .binary64 mantissa exponent accuracy =
      ((ExtendedMantissa.ofMantissaAndAccuracy mantissa accuracy >>> (target - exponent).toNat :
        ExtendedMantissa), exponent + (target - exponent).toNat) := by
  rw [shiftToTargetExponent, shiftToExponent, targetExponent_eq, reached]

theorem Describes.shiftTo {exponent target : Int} (describes : Describes em y)
    (finer : exponent ≤ target) :
    Describes (em >>> (target - exponent).toNat) (y * 2 ^ exponent / 2 ^ target) := by
  have shifted := describes.shiftRight (target - exponent).toNat
  have scaled : y / 2 ^ (target - exponent).toNat = y * 2 ^ exponent / 2 ^ target := by
    have exponents : (target - exponent).toNat + exponent = target := by omega
    rw [div_eq_div_iff (by positivity) (two_zpow_pos target).ne', mul_assoc,
      mul_comm (2 ^ exponent), natCast_mul_two_zpow, exponents]
  rwa [scaled] at shifted

theorem Nearest.rounds {m : Nat} {q : Int} {x : Rat} (nearest : Nearest m q x)
    (describes : Describes em (x / 2 ^ q)) : em.roundedMantissa = m := by
  have scale := two_zpow_pos q
  have small := reach_le m q
  have low := (le_div_iff₀ scale).mpr nearest.low
  have high := (div_le_iff₀ scale).mpr nearest.high
  refine describes.roundedMantissa (by linarith) high fun tie => nearest.ends ?_
  rw [div_eq_iff scale.ne', div_eq_iff scale.ne'] at tie
  rcases tie with lower | upper
  · -- A tie at the lower end lies half a place away, so the gap is not narrow.
    have wide : reach m q = 1 / 2 := by
      rw [lower, mul_div_cancel_right₀ _ scale.ne'] at low
      linarith
    exact .inl (wide ▸ lower)
  · exact .inr upper

theorem Nearest.rounds_below {m : Nat} {q : Int} {x : Rat} (nearest : Nearest m q x)
    (narrow : Narrow m q) (under : x < m * 2 ^ q) (describes : Describes em (x / 2 ^ (q - 1))) :
    em.roundedMantissa = 2 ^ 53 := by
  have scale := two_zpow_pos q
  have halved : x / 2 ^ (q - 1) = 2 * (x / 2 ^ q) := by
    rw [zpow_sub_one₀ two_ne_zero]
    field_simp
  have low := (le_div_iff₀ scale).mpr nearest.low
  have high := (div_lt_iff₀ scale).mpr under
  rw [reach, if_pos narrow] at low
  rw [narrow.1] at low high
  push_cast at low high
  refine describes.roundedMantissa ?_ ?_ fun _ => by norm_num
  · rw [halved]
    push_cast
    linarith
  · rw [halved]
    push_cast
    linarith

theorem Canonical.shift_again {m : Nat} {q : Int} (canonical : Canonical m q) :
    shiftToTargetExponent .binary64 m q .exact = (⟨m, false, false⟩, q) := by
  rw [shiftToTargetExponent_eq canonical.target]
  simp [ExtendedMantissa.ofMantissaAndAccuracy]

theorem Narrow.shift_again {m : Nat} {q : Int} (narrow : Narrow m q) :
    shiftToTargetExponent .binary64 (2 ^ 53) (q - 1) .exact = (⟨m, false, false⟩, q) := by
  have least := narrow.2
  have target : max (((2 ^ 53 : Nat).log2 : Int) + (q - 1) - 52) (-1074) = q := by
    rw [Nat.log2_two_pow]
    omega
  have one : (q - (q - 1)).toNat = 1 := by omega
  rw [shiftToTargetExponent_eq target, one, narrow.1]
  simp [ExtendedMantissa.ofMantissaAndAccuracy, ExtendedMantissa.shiftRightOne]

/-- Every number nearest to `m * 2 ^ q` is rounded to it, whatever mantissa and exponent it
is given by, if these keep at least the bits that the result has. -/
theorem roundWithAccuracy_eq {mantissa m : Nat} {exponent q top : Int} {accuracy : Accuracy}
    (sign : Sign) (canonical : Canonical m q) (nearest : Nearest m q (y * 2 ^ exponent))
    (describes : Describes (.ofMantissaAndAccuracy mantissa accuracy) y)
    (above : 2 ^ top ≤ y * 2 ^ exponent) (fine : exponent ≤ max (top - 52) (-1074)) :
    roundWithAccuracy .binary64 sign mantissa exponent accuracy =
      .finite sign m q canonical.positive := by
  have whole : (ExtendedMantissa.ofMantissaAndAccuracy mantissa accuracy).mantissa = mantissa := by
    unfold ExtendedMantissa.ofMantissaAndAccuracy
    split <;> rfl
  have low := whole ▸ describes.le
  have high := whole ▸ describes.lt
  obtain ⟨finer, target⟩ := targetExponent_of_nearest canonical nearest low high above fine
  rw [roundWithAccuracy]
  -- After rounding the mantissa is shifted once more, in case that it outgrew its bits. It
  -- does so only when it was rounded up to a power of two from below.
  rcases target with same | ⟨less, narrow, under⟩
  · have rounded := nearest.rounds (describes.shiftTo (same ▸ finer))
    have exponents : exponent + ((q - exponent).toNat : Int) = q := by omega
    rw [shiftToTargetExponent_eq same]
    dsimp only
    rw [rounded, exponents, canonical.shift_again]
    exact dif_neg canonical.positive.ne'
  · have rounded := nearest.rounds_below narrow under (describes.shiftTo (less ▸ finer))
    have exponents : exponent + ((q - 1 - exponent).toNat : Int) = q - 1 := by omega
    rw [shiftToTargetExponent_eq less]
    dsimp only
    rw [rounded, exponents, narrow.shift_again]
    exact dif_neg canonical.positive.ne'

end Parametric.Rounding
