import Parametric.Number.Reading
import Parametric.Proofs.Number.Arithmetic
/-! Reading a decimal gives the nearest binary64 number.

A decimal in the interval around a number is read as that number: few digits and
a small power of ten go through one exact operation, all others through the
exact quotient or product.
-/

set_option autoImplicit false

namespace Parametric

open Float.Model Float.Model.UnpackedFloat
open Rounding

namespace Rounding

variable {m m₁ m₂ : Nat} {q e₁ e₂ : Int} {a b : Float}

theorem Parts.mul (canonical : Canonical m q) (first : Parts a m₁ e₁) (second : Parts b m₂ e₂)
    (nearest : Nearest m q ((m₁ * 2 ^ e₁) * (m₂ * 2 ^ e₂))) (long : 2 ^ 52 ≤ m₁ * m₂) :
    a * b = .ofModel (.pack (.finite .positive m q canonical.positive)) := by
  obtain ⟨positive₁, unpack₁⟩ := first
  obtain ⟨positive₂, unpack₂⟩ := second
  change Float.ofModel (.pack (.mul .binary64 a.toModel.unpack b.toModel.unpack)) = _
  rw [unpack₁, unpack₂, mul_nearest canonical nearest long]

theorem Parts.div (canonical : Canonical m q) (first : Parts a m₁ e₁) (second : Parts b m₂ e₂)
    (nearest : Nearest m q ((m₁ * 2 ^ e₁) / (m₂ * 2 ^ e₂))) :
    a / b = .ofModel (.pack (.finite .positive m q canonical.positive)) := by
  obtain ⟨positive₁, unpack₁⟩ := first
  obtain ⟨positive₂, unpack₂⟩ := second
  change Float.ofModel (.pack (.div .binary64 a.toModel.unpack b.toModel.unpack)) = _
  rw [unpack₁, unpack₂, div_nearest canonical nearest]

/-! ## Scientific notation -/

theorem Nearest.half_le {x : Rat} (canonical : Canonical m q) (nearest : Nearest m q x) :
    (2 : Rat) ^ (-1075 : Int) ≤ x := by
  have small := reach_le m q
  have one : (1 : Rat) ≤ m := by exact_mod_cast canonical.positive
  have scale : (2 : Rat) ^ (-1074 : Int) ≤ 2 ^ q := two_zpow_le.mpr canonical.least
  calc (2 : Rat) ^ (-1075 : Int) = 1 / 2 * 2 ^ (-1074 : Int) := by
        rw [show (-1074 : Int) = -1075 + 1 by norm_num, zpow_add_one₀ two_ne_zero]
        ring
    _ ≤ 1 / 2 * 2 ^ q := by linarith
    _ ≤ (m - reach m q) * 2 ^ q :=
        mul_le_mul_of_nonneg_right (by linarith) (two_zpow_pos q).le
    _ ≤ x := nearest.low

theorem Nearest.lt_top {x : Rat} (canonical : Canonical m q) (bounded : q ≤ 971)
    (nearest : Nearest m q x) : x < (2 : Rat) ^ (1024 : Int) :=
  (nearest.high.trans_lt canonical.high_lt).trans_le (two_zpow_le.mpr (by omega))

variable {digits : Nat} {exponent : Int}

theorem zpow_le_zpow_of_nonpos {x y : Rat} {e : Int} (positive : 0 < x) (le : x ≤ y)
    (nonpos : e ≤ 0) : y ^ e ≤ x ^ e := by
  have opposite : x ^ (-e) ≤ y ^ (-e) := zpow_le_zpow_left₀ (by omega) positive.le le
  rw [zpow_neg, zpow_neg] at opposite
  exact (inv_le_inv₀ (zpow_pos positive e) (zpow_pos (positive.trans_le le) e)).mp opposite

theorem digits_pos (canonical : Canonical m q) (nearest : Nearest m q (digits * 10 ^ exponent)) :
    0 < digits := by
  refine Nat.pos_of_ne_zero fun zero => ?_
  have low := nearest.half_le canonical
  rw [zero, Nat.cast_zero, zero_mul] at low
  exact absurd low (two_zpow_pos _).not_ge

theorem ofScientific_model_nearest (canonical : Canonical m q) (bounded : q ≤ 971)
    (nearest : Nearest m q (digits * 10 ^ exponent)) :
    UnpackedFloat.ofScientific .binary64 digits exponent =
      .finite .positive m q canonical.positive := by
  have low := nearest.half_le canonical
  have high := nearest.lt_top canonical bounded
  have positive := digits_pos canonical nearest
  have one : (1 : Rat) ≤ digits := by exact_mod_cast positive
  -- Exponents that the model does not calculate with are out of reach of any number.
  have notLarge : ¬ exponent > 2 ^ 11 := by
    intro large
    have under : (2 : Rat) ^ exponent ≤ digits * 10 ^ exponent :=
      (zpow_le_zpow_left₀ (by omega) (by norm_num) (by norm_num)).trans
        (le_mul_of_one_le_left (by positivity) one)
    have := two_zpow_lt.mp (under.trans_lt high)
    omega
  have notSmall : ¬ exponent < -(2 ^ 11 + digits.log2 : Int) := by
    intro small
    have power : (digits : Rat) ≤ 2 ^ (digits.log2 + 1) := by
      exact_mod_cast Nat.lt_log2_self.le
    have above : digits * (10 : Rat) ^ exponent ≤ 2 ^ ((digits.log2 + 1 : Nat) + exponent) := by
      rw [← natCast_mul_two_zpow]
      exact mul_le_mul power (zpow_le_zpow_of_nonpos two_pos (by norm_num) (by omega))
        (by positivity) (by positivity)
    have := two_zpow_le.mp (low.trans above)
    push_cast at this
    omega
  rw [UnpackedFloat.ofScientific, dif_neg positive.ne', if_neg notLarge, if_neg notSmall]
  split_ifs with whole
  · have power : (10 : Rat) ^ exponent = (10 ^ exponent.toNat : Nat) := by
      rw [Nat.cast_pow, ← zpow_natCast, Int.toNat_of_nonneg whole]
      norm_num
    have exact : ((digits <<< Format.binary64.mantissaBits : Nat) : Rat) *
        2 ^ (-(Format.binary64.mantissaBits : Int)) *
          ((10 ^ exponent.toNat : Nat) * 2 ^ (0 : Int)) = digits * 10 ^ exponent := by
      rw [power, Nat.shiftLeft_eq, zpow_neg, zpow_natCast, zpow_zero]
      push_cast
      field_simp
    have long : 2 ^ 52 ≤ (digits <<< Format.binary64.mantissaBits) * 10 ^ exponent.toNat := by
      rw [Nat.shiftLeft_eq, mul_assoc]
      have ten := Nat.one_le_pow exponent.toNat 10 (by norm_num)
      calc 2 ^ 52 ≤ 1 * (2 ^ 53 * 1) := by norm_num
        _ ≤ digits * (2 ^ Format.binary64.mantissaBits * 10 ^ exponent.toNat) :=
          Nat.mul_le_mul positive (Nat.mul_le_mul le_rfl ten)
    rw [← exact] at nearest
    exact mul_nearest canonical nearest long
  · have power : (10 : Rat) ^ exponent = ((10 ^ (-exponent).toNat : Nat) : Rat)⁻¹ := by
      rw [Nat.cast_pow, ← zpow_natCast, ← zpow_neg, Int.toNat_of_nonneg (by omega), neg_neg]
      norm_num
    have exact : (digits : Rat) * 2 ^ (0 : Int) / ((10 ^ (-exponent).toNat : Nat) * 2 ^ (0 : Int)) =
        digits * 10 ^ exponent := by
      rw [power, zpow_zero, mul_one, mul_one, div_eq_mul_inv]
    rw [← exact] at nearest
    exact div_nearest canonical nearest

theorem ofScientific_nearest (canonical : Canonical m q) (bounded : q ≤ 971)
    (nearest : Nearest m q (digits * 10 ^ exponent)) :
    Float.ofScientific digits (exponent < 0) exponent.natAbs =
      .ofModel (.pack (.finite .positive m q canonical.positive)) := by
  have positive := digits_pos canonical nearest
  unfold Float.ofScientific
  by_cases few : digits < 2 ^ 53 ∧ exponent.natAbs ≤ 22
  · rw [dif_pos few]
    obtain ⟨m₁, e₁, first, value, full⟩ := toFloat_parts positive few.1
    obtain ⟨m₂, e₂, second, power⟩ := parts_of_isExactly (powersOfTen_exact
      ⟨exponent.natAbs, by simp [Float.exactlyRepresentablePowersOfTen]; omega⟩)
    push_cast at power
    by_cases negative : exponent < 0
    · have exact : (m₁ * 2 ^ e₁ : Rat) / (m₂ * 2 ^ e₂) = digits * 10 ^ exponent := by
        rw [value, power, ← zpow_natCast, div_eq_mul_inv, ← zpow_neg]
        congr 2
        omega
      rw [← exact] at nearest
      simp only [negative, decide_true, if_true]
      exact first.div canonical second nearest
    · have exact : (m₁ * 2 ^ e₁ : Rat) * (m₂ * 2 ^ e₂) = digits * 10 ^ exponent := by
        rw [value, power, ← zpow_natCast]
        congr 2
        omega
      have long : 2 ^ 52 ≤ m₁ * m₂ := by
        obtain ⟨positive₂, _⟩ := second
        exact full.trans (Nat.le_mul_of_pos_right m₁ positive₂)
      rw [← exact] at nearest
      simp only [negative, decide_false, Bool.false_eq_true, if_false]
      exact first.mul canonical second nearest long
  · rw [dif_neg few]
    have sign : (if decide (exponent < 0) = true then Int.negOfNat exponent.natAbs
        else Int.ofNat exponent.natAbs) = exponent := by
      split_ifs with negative
      · rw [Int.negOfNat_eq]
        have := of_decide_eq_true negative
        simp only [Int.ofNat_eq_natCast]
        omega
      · simp only [Int.ofNat_eq_natCast]
        simp only [decide_eq_true_eq] at negative
        omega
    dsimp only
    rw [sign, Float.Model.ofScientific, ofScientific_model_nearest canonical bounded nearest]

/-! ## Signs -/

def Unsigned : UnpackedFloat → Prop
  | .finite sign _ _ _ | .zero sign | .infinity sign => sign = .positive
  | .notANumber => True

theorem isNegative_pack {u : UnpackedFloat} (unsigned : Unsigned u) :
    NumberForm.isNegative (.ofModel (.pack u)) = false := by
  -- Whatever the other fields are, the sign bit is the topmost one.
  have small : ∀ (e : BitVec 11) (f : BitVec 52),
      ¬ (packComponents .binary64 .positive e f).toNat / Nat.pow 2 63 = 1 := by
    intro e f
    rw [Nat.pow_eq, ← unpackSign_toNat, unpackSign_packComponents]
    decide
  change decide ((UnpackedFloat.pack .binary64 u).toNat / Nat.pow 2 63 = 1) = false
  rw [decide_eq_false_iff_not]
  cases u with
  | notANumber => exact small _ _
  | infinity sign =>
    cases unsigned
    exact small _ _
  | zero sign =>
    cases unsigned
    exact small _ _
  | finite sign m q positive =>
    cases unsigned
    unfold UnpackedFloat.pack
    dsimp only
    split_ifs
    · exact small _ _
    · exact small _ _
    · exact small _ _

theorem unsigned_round (mantissa : Nat) (exponent : Int) (accuracy : Accuracy) :
    Unsigned (roundWithAccuracy .binary64 .positive mantissa exponent accuracy) := by
  unfold roundWithAccuracy
  dsimp only
  split_ifs <;> rfl

theorem Parts.isNegative_mul (first : Parts a m₁ e₁) (second : Parts b m₂ e₂) :
    NumberForm.isNegative (a * b) = false := by
  obtain ⟨positive₁, unpack₁⟩ := first
  obtain ⟨positive₂, unpack₂⟩ := second
  change NumberForm.isNegative (.ofModel (.pack (.mul .binary64 a.toModel.unpack
    b.toModel.unpack))) = false
  rw [unpack₁, unpack₂]
  exact isNegative_pack (unsigned_round _ _ _)

theorem Parts.isNegative_div (first : Parts a m₁ e₁) (second : Parts b m₂ e₂) :
    NumberForm.isNegative (a / b) = false := by
  obtain ⟨positive₁, unpack₁⟩ := first
  obtain ⟨positive₂, unpack₂⟩ := second
  change NumberForm.isNegative (.ofModel (.pack (.div .binary64 a.toModel.unpack
    b.toModel.unpack))) = false
  rw [unpack₁, unpack₂]
  exact isNegative_pack (unsigned_round _ _ _)

theorem unsigned_ofScientific_model (digits : Nat) (exponent : Int) :
    Unsigned (UnpackedFloat.ofScientific .binary64 digits exponent) := by
  unfold UnpackedFloat.ofScientific
  split_ifs
  · rfl
  · rfl
  · rfl
  · exact unsigned_round _ _ _
  · exact unsigned_round _ _ _

theorem isNegative_ofScientific {digits : Nat} (positive : 0 < digits) (negative : Bool)
    (exponent : Nat) :
    NumberForm.isNegative (Float.ofScientific digits negative exponent) = false := by
  unfold Float.ofScientific
  by_cases few : digits < 2 ^ 53 ∧ exponent ≤ 22
  · rw [dif_pos few]
    obtain ⟨m₁, e₁, first, _⟩ := toFloat_parts positive few.1
    obtain ⟨m₂, e₂, second, _⟩ := parts_of_isExactly (powersOfTen_exact
      ⟨exponent, by simp [Float.exactlyRepresentablePowersOfTen]; omega⟩)
    cases negative with
    | true => exact first.isNegative_div second
    | false => exact first.isNegative_mul second
  · rw [dif_neg few]
    exact isNegative_pack (unsigned_ofScientific_model _ _)

end Rounding

/-! ## Decimals -/

namespace Decimal

theorem ten_zpow_lt {a b : Int} : (10 : Rat) ^ a < 10 ^ b ↔ a < b :=
  zpow_lt_zpow_iff_right₀ (by norm_num)

theorem natCast_mul_ten_zpow (n : Nat) (e : Int) : (10 : Rat) ^ n * 10 ^ e = 10 ^ (n + e) := by
  rw [zpow_add₀ (by norm_num), zpow_natCast]

theorem toRat_lt (d : Decimal) : d.toRat < 10 ^ d.point := by
  have bounded : d.digits < 10 ^ d.text.length :=
    (Nat.length_toDigits_le_iff (by norm_num) Nat.length_toDigits_pos).mp le_rfl
  have bounded : (d.digits : Rat) < 10 ^ d.text.length := by exact_mod_cast bounded
  rw [point, add_comm, ← natCast_mul_ten_zpow]
  exact mul_lt_mul_of_pos_right bounded (by positivity)

theorem le_toRat {d : Decimal} (positive : 0 < d.digits) : 10 ^ (d.point - 1) ≤ d.toRat := by
  have some : 0 < d.text.length := Nat.length_toDigits_pos
  have reached : 10 ^ (d.text.length - 1) ≤ d.digits := by
    by_cases single : d.text.length - 1 = 0
    · rw [single]
      exact positive
    · have long : ¬ d.text.length ≤ d.text.length - 1 := by omega
      have above := Nat.length_toDigits_le_iff (b := 10) (n := d.digits) (by norm_num)
        (Nat.pos_of_ne_zero single)
      exact not_lt.mp (mt above.mpr long)
  have reached : (10 : Rat) ^ (d.text.length - 1) ≤ d.digits := by exact_mod_cast reached
  have exponents : d.point - 1 = (d.text.length - 1 : Nat) + d.exponent := by
    rw [point]
    omega
  rw [exponents, ← natCast_mul_ten_zpow]
  exact mul_le_mul_of_nonneg_right reached (by positivity)

/-- A decimal is read as the magnitude that it is nearest to. -/
theorem toFloat_nearest {x : Float} (finite : x.isFinite = true)
    (positive : 0 < (Binary.ofFloat x).mantissa) {d : Decimal}
    (nearest : Nearest (Binary.ofFloat x).mantissa (Binary.ofFloat x).exponent d.toRat) :
    d.toFloat = x.abs := by
  have canonical := Binary.canonical positive
  have bounded := Binary.exponent_le finite
  have digits := digits_pos canonical nearest
  -- The cut-offs of the reader lie beyond the largest and the least number.
  have notLarge : ¬ 310 < d.point := by
    have power : (2 : Rat) ^ (1024 : Int) < 10 ^ (309 : Int) := by
      have natural : 2 ^ 1024 < 10 ^ 309 := by decide +kernel
      exact_mod_cast natural
    have reached := (le_toRat digits).trans_lt (nearest.lt_top canonical bounded)
    have := ten_zpow_lt.mp (reached.trans power)
    omega
  have notSmall : ¬ d.point < -330 := by
    have power : (10 : Rat) ^ (-330 : Int) < 2 ^ (-1075 : Int) := by
      have natural : 2 ^ 1075 < 10 ^ 330 := by decide +kernel
      rw [zpow_neg, zpow_neg, inv_lt_inv₀ (by positivity) (by positivity)]
      exact_mod_cast natural
    have := ten_zpow_lt.mp ((power.trans_le (nearest.half_le canonical)).trans d.toRat_lt)
    omega
  rw [toFloat, if_neg digits.ne', if_neg notLarge, if_neg notSmall,
    ofScientific_nearest canonical bounded nearest, abs_of_mantissa finite positive]

theorem toFloat_unsigned (d : Decimal) : NumberForm.isNegative d.toFloat = false := by
  unfold toFloat
  split_ifs with zero
  · decide +kernel
  · decide +kernel
  · decide +kernel
  · exact isNegative_ofScientific (Nat.pos_of_ne_zero zero) _ _

end Decimal

end Parametric
