import Mathlib
import Parametric.Number.Text
import Parametric.Proofs.Number.Rounding
/-! The fields of a binary64 number, and the decimals nearest to it.

Reading the fields as natural numbers gives the mantissa and the exponent that
the model of binary64 works with, and these give the number back. That packing
undoes unpacking is `pack_unpack_of_valid`, which only Mathlib as a whole brings in.
-/

set_option autoImplicit false

namespace Parametric

open Float.Model Float.Model.UnpackedFloat
open Rounding

/-! ## Fields as natural numbers -/

theorem toNat_append {m n : Nat} (x : BitVec m) (y : BitVec n) :
    (x ++ y).toNat = x.toNat * 2 ^ n + y.toNat := by
  rw [BitVec.toNat_append, ← Nat.shiftLeft_add_eq_or_of_lt y.isLt, Nat.shiftLeft_eq]

section Fields

variable (b : BitVec Format.binary64.numBits)

theorem unpackMantissa_toNat : (unpackMantissa b).toNat = b.toNat % 2 ^ 52 := by
  simp [unpackMantissa]

theorem unpackExponent_toNat : (unpackExponent b).toNat = b.toNat / 2 ^ 52 % 2 ^ 11 := by
  simp [unpackExponent, Nat.shiftRight_eq_div_pow]

theorem unpackSign_toNat : (unpackSign b).toNat = b.toNat / 2 ^ 63 := by
  have bound : b.toNat < 2 ^ 64 := b.isLt
  simp only [unpackSign, BitVec.toNat_cast, BitVec.extractLsb_toNat, Nat.shiftRight_eq_div_pow]
  omega

end Fields

theorem pack_unpack (x : Float) : .ofModel (.pack x.toModel.unpack) = x := by
  obtain ⟨⟨bits, valid⟩⟩ := x
  have same := pack_unpack_of_valid valid
  unfold Float.Model.pack Float.Model.unpack
  simp only [same]

/-! ## Mantissa and exponent -/

def bitsOf (x : Float) : BitVec Format.binary64.numBits :=
  x.toBits.toBitVec

def signOf (x : Float) : Sign :=
  if NumberForm.isNegative x then .negative else .positive

def fieldOf (x : Float) : Nat :=
  x.toBits.toNat / 2 ^ 52 % 2 ^ 11

def fractionOf (x : Float) : Nat :=
  x.toBits.toNat % 2 ^ 52

section Parts

variable (x : Float)

theorem fractionOf_lt : fractionOf x < 2 ^ 52 :=
  Nat.mod_lt _ (by norm_num)

theorem unpackMantissa_eq :
    (unpackMantissa (bitsOf x)).toNat = fractionOf x :=
  unpackMantissa_toNat _

theorem unpackExponent_eq :
    (unpackExponent (bitsOf x)).toNat = fieldOf x :=
  unpackExponent_toNat _

theorem ofBitVec_unpackSign :
    Sign.ofBitVec (unpackSign (bitsOf x)) = signOf x := by
  have bit : (unpackSign (bitsOf x)).toNat =
      x.toBits.toNat / Nat.pow 2 63 := unpackSign_toNat _
  unfold signOf NumberForm.isNegative
  rw [← bit]
  -- A sign is a single bit, so both readings are compared at its two values.
  generalize unpackSign (bitsOf x) = s
  rcases s.eq_zero_or_eq_one with rfl | rfl <;> rfl

theorem ofFloat_eq : Binary.ofFloat x =
    if fieldOf x = 0 then ⟨fractionOf x, -1074, false⟩
    else ⟨2 ^ 52 + fractionOf x, fieldOf x - 1075, fractionOf x = 0 ∧ 1 < fieldOf x⟩ := rfl

theorem unpack_eq : x.toModel.unpack =
    if fieldOf x = 2047 then
      if fractionOf x = 0 then .infinity (signOf x) else .notANumber
    else if positive : 0 < (Binary.ofFloat x).mantissa then
      .finite (signOf x) (Binary.ofFloat x).mantissa (Binary.ofFloat x).exponent positive
    else .zero (signOf x) := by
  have special : unpackExponent (bitsOf x) = -1#11 ↔
      fieldOf x = 2047 := by
    rw [← unpackExponent_eq, ← BitVec.toNat_inj]
    rfl
  have zero : unpackExponent (bitsOf x) = 0#11 ↔ fieldOf x = 0 := by
    rw [← unpackExponent_eq, ← BitVec.toNat_inj]
    rfl
  have none : unpackMantissa (bitsOf x) = 0#52 ↔
      fractionOf x = 0 := by
    rw [← unpackMantissa_eq, ← BitVec.toNat_inj]
    rfl
  have lead : (1#1 ++ unpackMantissa (bitsOf x)).toNat =
      2 ^ 52 + fractionOf x := by
    rw [toNat_append, unpackMantissa_eq]
    rfl
  have sign := ofBitVec_unpackSign x
  change UnpackedFloat.unpack .binary64 (bitsOf x) = _
  unfold UnpackedFloat.unpack
  dsimp only
  rw [ofFloat_eq]
  -- The model asks for the exponent field first, and this is the order of the cases here.
  by_cases largest : fieldOf x = 2047
  · rw [if_pos (special.mpr largest), if_pos largest]
    simp only [none, sign]
  · rw [if_neg (mt special.mp largest), if_neg largest]
    by_cases least : fieldOf x = 0
    · rw [if_pos (zero.mpr least)]
      simp only [least, if_true, sign, unpackExponent_eq]
      by_cases empty : fractionOf x = 0
      · simp [none.mpr empty, empty]
      · have positive : 0 < fractionOf x := Nat.pos_of_ne_zero empty
        simp only [mt none.mp empty, dif_neg, not_false_iff, positive, dif_pos, unpackMantissa_eq]
        rfl
    · rw [if_neg (mt zero.mp least)]
      have positive : 0 < 2 ^ 52 + fractionOf x := by omega
      simp only [least, if_false, sign, lead, unpackExponent_eq, positive, dif_pos]
      rfl

theorem isFinite_iff : x.isFinite = true ↔ fieldOf x ≠ 2047 := by
  change UnpackedFloat.isFinite x.toModel.unpack = true ↔ _
  rw [unpack_eq]
  split_ifs with largest <;> simp [UnpackedFloat.isFinite, largest]

theorem isNaN_of_isFinite (finite : x.isFinite = true) : x.isNaN = false := by
  have small := (isFinite_iff x).mp finite
  change UnpackedFloat.isNaN x.toModel.unpack = false
  rw [unpack_eq, if_neg small]
  split_ifs <;> rfl

theorem isInf_of_isFinite (finite : x.isFinite = true) : x.isInf = false := by
  have small := (isFinite_iff x).mp finite
  change UnpackedFloat.isInf x.toModel.unpack = false
  rw [unpack_eq, if_neg small]
  split_ifs <;> rfl

end Parts

variable {x : Float}

theorem Binary.canonical (positive : 0 < (Binary.ofFloat x).mantissa) :
    Canonical (Binary.ofFloat x).mantissa (Binary.ofFloat x).exponent := by
  have bounded := fractionOf_lt x
  rw [ofFloat_eq] at positive ⊢
  split_ifs at positive ⊢ with least
  · exact ⟨positive, by simp only; omega, by simp, .inr rfl⟩
  · exact ⟨positive, by simp only; omega, by simp only; omega, .inl (by simp only; omega)⟩

theorem Binary.exponent_le (finite : x.isFinite = true) : (Binary.ofFloat x).exponent ≤ 971 := by
  have small := (isFinite_iff x).mp finite
  have bounded : fieldOf x < 2 ^ 11 := Nat.mod_lt _ (by norm_num)
  rw [ofFloat_eq]
  split_ifs <;> simp only <;> omega

theorem Binary.narrowBelow_iff : (Binary.ofFloat x).narrowBelow = true ↔
    Narrow (Binary.ofFloat x).mantissa (Binary.ofFloat x).exponent := by
  have bounded := fractionOf_lt x
  unfold Narrow
  rw [ofFloat_eq]
  split_ifs with least
  · simp
  · simp only [decide_eq_true_eq]
    omega

theorem ofModel_finite (finite : x.isFinite = true)
    (positive : 0 < (Binary.ofFloat x).mantissa) :
    .ofModel (.pack (.finite (signOf x) (Binary.ofFloat x).mantissa
      (Binary.ofFloat x).exponent positive)) = x := by
  have parts := pack_unpack x
  rwa [unpack_eq, if_neg ((isFinite_iff x).mp finite), dif_pos positive] at parts

theorem ofModel_zero (finite : x.isFinite = true) (zero : (Binary.ofFloat x).mantissa = 0) :
    .ofModel (.pack (.zero (signOf x))) = x := by
  have parts := pack_unpack x
  rwa [unpack_eq, if_neg ((isFinite_iff x).mp finite), dif_neg (by omega)] at parts

theorem signOf_eq (unsigned : NumberForm.isNegative x = false) : signOf x = .positive := by
  rw [signOf, unsigned]
  rfl

theorem abs_of_mantissa (finite : x.isFinite = true) (positive : 0 < (Binary.ofFloat x).mantissa) :
    x.abs = .ofModel (.pack (.finite .positive (Binary.ofFloat x).mantissa
      (Binary.ofFloat x).exponent positive)) := by
  change Float.ofModel (.pack x.toModel.unpack.abs) = _
  rw [unpack_eq, if_neg ((isFinite_iff x).mp finite), dif_pos positive]
  rfl

theorem abs_of_zero (finite : x.isFinite = true) (zero : (Binary.ofFloat x).mantissa = 0) :
    x.abs = .ofModel (.pack (.zero .positive)) := by
  change Float.ofModel (.pack x.toModel.unpack.abs) = _
  rw [unpack_eq, if_neg ((isFinite_iff x).mp finite), dif_neg (by omega)]
  rfl

theorem abs_of_unsigned (finite : x.isFinite = true) (unsigned : NumberForm.isNegative x = false) :
    x.abs = x := by
  rcases Nat.eq_zero_or_pos (Binary.ofFloat x).mantissa with zero | positive
  · have same := ofModel_zero finite zero
    rwa [signOf_eq unsigned, ← abs_of_zero finite zero] at same
  · have same := ofModel_finite finite positive
    rwa [signOf_eq unsigned, ← abs_of_mantissa finite positive] at same

/-! ## The decimals nearest to a number -/

def Decimal.toRat (d : Decimal) : Rat :=
  d.digits * 10 ^ d.exponent

theorem zpow_eq_div (base : Nat) (e : Int) :
    (base : Rat) ^ e = (base ^ e.toNat : Nat) / (base ^ (-e).toNat : Nat) := by
  cases e with
  | ofNat n => simp
  | negSucc n =>
    rw [zpow_negSucc, Int.toNat_negSucc, Int.neg_negSucc]
    simp

section Quarters

variable (a : Nat) (q : Int) (d : Decimal)

theorem quarters_eq :
    (a : Rat) / 4 * 2 ^ q = (a * 2 ^ q.toNat : Nat) / (4 * 2 ^ (-q).toNat : Nat) ∧
    d.toRat = (d.digits * 10 ^ d.exponent.toNat : Nat) / (10 ^ (-d.exponent).toNat : Nat) := by
  have two := zpow_eq_div 2 q
  have ten := zpow_eq_div 10 d.exponent
  push_cast at two ten ⊢
  rw [Decimal.toRat, two, ten]
  exact ⟨by rw [div_mul_div_comm], by rw [mul_div_assoc]⟩

theorem quarters_le : a * 2 ^ q.toNat * 10 ^ (-d.exponent).toNat ≤
      d.digits * 10 ^ d.exponent.toNat * (4 * 2 ^ (-q).toNat) ↔
    (a : Rat) / 4 * 2 ^ q ≤ d.toRat := by
  obtain ⟨quarters, decimal⟩ := quarters_eq a q d
  rw [quarters, decimal, div_le_div_iff₀ (by positivity) (by positivity)]
  norm_cast

theorem le_quarters : d.digits * 10 ^ d.exponent.toNat * (4 * 2 ^ (-q).toNat) ≤
      a * 2 ^ q.toNat * 10 ^ (-d.exponent).toNat ↔
    d.toRat ≤ (a : Rat) / 4 * 2 ^ q := by
  obtain ⟨quarters, decimal⟩ := quarters_eq a q d
  rw [quarters, decimal, div_le_div_iff₀ (by positivity) (by positivity)]
  norm_cast

end Quarters

theorem Binary.interval_holds_iff {b : Binary} (positive : 0 < b.mantissa)
    (narrow : b.narrowBelow = true ↔ Narrow b.mantissa b.exponent) (d : Decimal) :
    b.interval.holds d.digits d.exponent = true ↔ Nearest b.mantissa b.exponent d.toRat := by
  -- The interval is given in quarters of the last place: half a place above, and half a place
  -- or a quarter below.
  generalize gap : (if b.narrowBelow then 1 else 2) = below
  have low := quarters_le (4 * b.mantissa - below) b.exponent d
  have low' := le_quarters (4 * b.mantissa - below) b.exponent d
  have high := le_quarters (4 * b.mantissa + 2) b.exponent d
  have high' := quarters_le (4 * b.mantissa + 2) b.exponent d
  have start : ((4 * b.mantissa - below : Nat) : Rat) / 4 =
      b.mantissa - reach b.mantissa b.exponent := by
    rw [reach, ← gap]
    by_cases half : b.narrowBelow = true
    · rw [if_pos half, if_pos (narrow.mp half), Nat.cast_sub (by omega)]
      push_cast
      ring
    · rw [if_neg half, if_neg (mt narrow.mpr half), Nat.cast_sub (by omega)]
      push_cast
      ring
  have stop : ((4 * b.mantissa + 2 : Nat) : Rat) / 4 = b.mantissa + 1 / 2 := by
    push_cast
    ring
  rw [start] at low low'
  rw [stop] at high high'
  unfold Interval.holds interval
  simp only [Nat.pow_eq, gap, decide_eq_true_eq]
  split_ifs with even
  · rw [decide_eq_true_eq, low, high]
    exact ⟨fun within => ⟨within.1, within.2, fun _ => even⟩,
      fun nearest => ⟨nearest.low, nearest.high⟩⟩
  · rw [decide_eq_true_eq, ← not_le, ← not_le, low', high', not_le, not_le]
    constructor
    · intro within
      refine ⟨within.1.le, within.2.le, ?_⟩
      rintro (same | same)
      · exact absurd same within.1.ne'
      · exact absurd same within.2.ne
    · intro nearest
      exact ⟨lt_of_le_of_ne nearest.low fun same => even (nearest.ends (.inl same.symm)),
        lt_of_le_of_ne nearest.high fun same => even (nearest.ends (.inr same))⟩

end Parametric
