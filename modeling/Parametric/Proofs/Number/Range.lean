import Parametric.Proofs.Number.Arithmetic
/-! Products that stay in the range of binary64.

Rounding moves the leading bit of a product up by one place at most, so a finite number times a
number below a half is finite.
-/

set_option autoImplicit false

namespace Parametric.Rounding

open Float.Model Float.Model.UnpackedFloat

theorem isFinite_pack {m : Nat} {q : Int} (s : Sign) (positive : 0 < m) (bounded : q ≤ 971) :
    (Float.Model.pack (.finite s m q positive)).unpack.isFinite = true := by
  have finite_of_field (b : BitVec Format.binary64.numBits)
      (field : (unpackExponent b).toNat ≠ 2047) :
      (UnpackedFloat.unpack .binary64 b).isFinite = true := by
    have special : unpackExponent b ≠ -1#11 := fun same => field (congrArg BitVec.toNat same)
    unfold UnpackedFloat.unpack
    simp only [special, if_false]
    split_ifs <;> rfl
  change (UnpackedFloat.unpack .binary64 (UnpackedFloat.pack .binary64 _)).isFinite = true
  have bias : (Format.binary64.exponentBias : Int) = 1023 := rfl
  have room : (q + (Format.binary64.exponentBias : Int) + (52 : Nat)).toNat < 2047 := by omega
  unfold UnpackedFloat.pack
  dsimp only
  generalize (q + (Format.binary64.exponentBias : Int) + (52 : Nat)).toNat = field at room ⊢
  have inside : ¬ 2 ^ Format.binary64.exponentBits ≤ field + 1 := by
    change ¬ 2 ^ 11 ≤ field + 1
    omega
  rw [if_neg inside]
  split_ifs
  · apply finite_of_field
    rw [unpackExponent_packComponents, BitVec.toNat_ofNat]
    change field % 2 ^ 11 ≠ 2047
    omega
  · apply finite_of_field
    rw [unpackExponent_packComponents]
    decide

theorem roundedMantissa_le (em : ExtendedMantissa) : em.roundedMantissa ≤ em.mantissa + 1 := by
  unfold ExtendedMantissa.roundedMantissa Accuracy.roundToNearestEven
  split <;> omega

/-- After the shift to the exponent that a number is rounded at, the mantissa has at most 53
bits. -/
theorem shiftToTargetExponent_bound (mantissa : Nat) (exponent : Int) :
    (shiftToTargetExponent .binary64 mantissa exponent .exact).1.mantissa < 2 ^ 53 ∧
    (shiftToTargetExponent .binary64 mantissa exponent .exact).2 =
      max exponent (max (mantissa.log2 + exponent - 52) (-1074)) := by
  rw [shiftToTargetExponent_eq rfl]
  generalize target : max ((mantissa.log2 : Int) + exponent - 52) (-1074) = t
  constructor
  · have shifted := ((describes_exact mantissa).shiftRight (t - exponent).toNat).le
    have places : mantissa.log2 + 1 ≤ 53 + (t - exponent).toNat := by omega
    have below : mantissa < 2 ^ 53 * 2 ^ (t - exponent).toNat := by
      rw [← pow_add]
      exact Nat.lt_log2_self.trans_le (Nat.pow_le_pow_right two_pos places)
    have quotient : (mantissa : Rat) / 2 ^ (t - exponent).toNat < (2 ^ 53 : Nat) := by
      rw [div_lt_iff₀ (by positivity)]
      exact_mod_cast below
    exact_mod_cast shifted.trans_lt quotient
  · dsimp only
    omega

/-- A number whose leading bit lies below the range is rounded to a finite one. -/
theorem isFinite_round {mantissa : Nat} {exponent : Int} (s : Sign) (low : exponent ≤ 970)
    (high : mantissa.log2 + exponent ≤ 1022) :
    (Float.Model.pack (roundWithAccuracy .binary64 s mantissa exponent .exact)).unpack.isFinite =
      true := by
  obtain ⟨bound, reached⟩ := shiftToTargetExponent_bound mantissa exponent
  rw [roundWithAccuracy]
  generalize shiftToTargetExponent .binary64 mantissa exponent .exact = first at bound reached ⊢
  obtain ⟨em, e⟩ := first
  dsimp only at bound reached ⊢
  have grown := roundedMantissa_le em
  have bits : em.roundedMantissa.log2 ≤ 53 := by
    rcases Nat.eq_zero_or_pos em.roundedMantissa with none | some
    · rw [none, Nat.log2_zero]
      omega
    · have small : em.roundedMantissa < 2 ^ 54 := by omega
      have := (Nat.log2_lt some.ne').mpr small
      omega
  have final := (shiftToTargetExponent_bound em.roundedMantissa e).2
  split_ifs
  · cases s <;> rfl
  · exact isFinite_pack s _ (by omega)

variable {x y : Float}

theorem unpack_of_isFinite (finite : x.isFinite = true) :
    (∃ s, x.toModel.unpack = .zero s) ∨
      ∃ s m q positive, x.toModel.unpack = .finite s m q positive ∧ m < 2 ^ 53 ∧ q ≤ 971 := by
  have small := (isFinite_iff x).mp finite
  have shape := unpack_eq x
  rw [if_neg small] at shape
  split_ifs at shape with positive
  · exact .inr ⟨_, _, _, positive, shape, (Binary.canonical positive).bounded,
      Binary.exponent_le finite⟩
  · exact .inl ⟨_, shape⟩

/-- A finite number times a number below a half is finite. -/
theorem isFinite_mul (finite : x.isFinite = true) {m : Nat} {q : Int} (factor : Parts y m q)
    (bits : m < 2 ^ 53) (below : q ≤ -54) : (x * y).isFinite = true := by
  obtain ⟨positive, parts⟩ := factor
  change (Float.Model.pack
    (UnpackedFloat.mul .binary64 x.toModel.unpack y.toModel.unpack)).unpack.isFinite = true
  rw [parts]
  rcases unpack_of_isFinite finite with ⟨s, zero⟩ | ⟨s, n, p, some, own, fits, bounded⟩
  · have product : UnpackedFloat.mul .binary64 (.zero s) (.finite .positive m q positive) =
        .zero (s * .positive) := rfl
    rw [zero, product]
    cases s <;> rfl
  · have product : UnpackedFloat.mul .binary64 (.finite s n p some)
        (.finite .positive m q positive) =
          roundWithAccuracy .binary64 (s * .positive) (n * m) (p + q) .exact := rfl
    rw [own, product]
    have wide : (n * m).log2 ≤ 105 := by
      have product : n * m < 2 ^ 106 := by
        rw [show 2 ^ 106 = 2 ^ 53 * 2 ^ 53 by rfl]
        exact Nat.mul_lt_mul_of_lt_of_lt fits bits
      have := (Nat.log2_lt (Nat.mul_pos some positive).ne').mpr product
      omega
    exact isFinite_round _ (by omega) (by omega)

end Parametric.Rounding
