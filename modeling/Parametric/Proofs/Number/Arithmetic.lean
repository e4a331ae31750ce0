import Parametric.Proofs.Number.Binary
/-! Products and quotients of binary64 numbers, rounded.

A product or quotient of two numbers is the number nearest to the exact one.
Small natural numbers and small powers of ten are binary64 numbers themselves.
-/

set_option autoImplicit false

namespace Parametric.Rounding

open Float.Model Float.Model.UnpackedFloat

variable {m m₁ m₂ : Nat} {q e₁ e₂ : Int}

theorem nearest_self (m : Nat) (q : Int) : Nearest m q (m * 2 ^ q) := by
  have scale := two_zpow_pos q
  have gap := reach_pos m q
  exact nearest_of_lt (mul_lt_mul_of_pos_right (by linarith) scale)
    (mul_lt_mul_of_pos_right (by linarith) scale)

theorem mul_nearest (canonical : Canonical m q) {positive₁ : 0 < m₁} {positive₂ : 0 < m₂}
    (nearest : Nearest m q ((m₁ * 2 ^ e₁) * (m₂ * 2 ^ e₂))) (long : 2 ^ 52 ≤ m₁ * m₂) :
    UnpackedFloat.mul .binary64 (.finite .positive m₁ e₁ positive₁)
      (.finite .positive m₂ e₂ positive₂) = .finite .positive m q canonical.positive := by
  have exact : (m₁ * 2 ^ e₁ : Rat) * (m₂ * 2 ^ e₂) = (m₁ * m₂ : Nat) * 2 ^ (e₁ + e₂) := by
    rw [zpow_add₀ two_ne_zero]
    push_cast
    ring
  rw [exact] at nearest
  have above : (2 : Rat) ^ ((52 : Nat) + (e₁ + e₂)) ≤ (m₁ * m₂ : Nat) * 2 ^ (e₁ + e₂) := by
    rw [← natCast_mul_two_zpow]
    exact mul_le_mul_of_nonneg_right (by exact_mod_cast long) (two_zpow_pos _).le
  exact roundWithAccuracy_eq .positive canonical nearest (describes_exact _) above (by omega)

theorem div_nearest (canonical : Canonical m q) {positive₁ : 0 < m₁} {positive₂ : 0 < m₂}
    (nearest : Nearest m q ((m₁ * 2 ^ e₁) / (m₂ * 2 ^ e₂))) :
    UnpackedFloat.div .binary64 (.finite .positive m₁ e₁ positive₁)
      (.finite .positive m₂ e₂ positive₂) = .finite .positive m q canonical.positive := by
  generalize difference : totalExponent m₁ e₁ - totalExponent m₂ e₂ = d
  have coarse : Format.binary64.targetExponent d = max (d - 53) (-1074) := by
    simp only [Format.targetExponent, Format.mantissaBits, Format.minExponent]
    norm_num
  generalize reached : min (e₁ - e₂) (Format.binary64.targetExponent d) = target
  have places : ((e₁ - e₂ - target).toNat : Int) + target = e₁ - e₂ := by omega
  have exact : (m₁ * 2 ^ e₁ : Rat) / (m₂ * 2 ^ e₂) =
      (m₁ <<< (e₁ - e₂ - target).toNat : Nat) / m₂ * 2 ^ target := by
    rw [Nat.shiftLeft_eq, Nat.cast_mul, Nat.cast_pow, Nat.cast_ofNat, div_mul_eq_mul_div, mul_assoc,
      natCast_mul_two_zpow, places, zpow_sub₀ two_ne_zero]
    field_simp
  -- The difference of the leading bits bounds the quotient from below, so the mantissa of the
  -- dividend has been extended far enough.
  have above : (2 : Rat) ^ (d - 1) ≤ (m₁ * 2 ^ e₁) / (m₂ * 2 ^ e₂) := by
    have top := le_totalExponent positive₁ le_rfl e₁
    have bottom := lt_totalExponent (lt_add_one (m₂ : Rat)) e₂
    have divisor : (0 : Rat) < m₂ * 2 ^ e₂ :=
      mul_pos (by exact_mod_cast positive₂) (two_zpow_pos e₂)
    rw [le_div_iff₀ divisor]
    calc (2 : Rat) ^ (d - 1) * (m₂ * 2 ^ e₂)
        ≤ 2 ^ (d - 1) * 2 ^ totalExponent m₂ e₂ :=
          mul_le_mul_of_nonneg_left bottom.le (two_zpow_pos _).le
      _ = 2 ^ (totalExponent m₁ e₁ - 1) := by
          rw [← zpow_add₀ two_ne_zero]
          congr 1
          omega
      _ ≤ m₁ * 2 ^ e₁ := top
  rw [exact] at nearest above
  have rounded := roundWithAccuracy_eq .positive canonical nearest
    (describes_quotient _ positive₂) above (by omega)
  simp only [UnpackedFloat.div, divCore, difference, reached]
  exact rounded

/-! ## Numbers that are binary64 numbers themselves -/

theorem Canonical.unpack_pack (canonical : Canonical m q) (bounded : q ≤ 971) (s : Sign) :
    (Float.Model.pack (.finite s m q canonical.positive)).unpack =
      .finite s m q canonical.positive := by
  have least := canonical.least
  have small := canonical.bounded
  have apart := canonical.positive.ne'
  change UnpackedFloat.unpack .binary64 (UnpackedFloat.pack .binary64 _) = _
  have biased : ((q + (Format.binary64.exponentBias : Int) + (52 : Nat)).toNat : Int) =
      q + 1075 := by
    simp [Format.exponentBias]
    omega
  unfold UnpackedFloat.pack
  dsimp only
  generalize (q + (Format.binary64.exponentBias : Int) + (52 : Nat)).toNat = field at biased ⊢
  rw [if_neg (by omega)]
  have bias : (Format.binary64.exponentBias : Int) = 1023 := rfl
  by_cases full : m.log2 + 1 = Format.binary64.mantissaBits
  · -- The leading bit is left out of the fraction and put back by the exponent field.
    have lower : 2 ^ 52 ≤ m := (Nat.le_log2 apart).mp (by simp [Format.mantissaBits] at full; omega)
    have fieldVec : (BitVec.ofNat 11 field).toNat = field := by
      rw [BitVec.toNat_ofNat, Nat.mod_eq_of_lt (by omega)]
    have special : BitVec.ofNat 11 field ≠ -1#11 := fun same => by
      have same : (BitVec.ofNat 11 field).toNat = 2047 := congrArg BitVec.toNat same
      omega
    have least : BitVec.ofNat 11 field ≠ 0#11 := fun same => by
      have same : (BitVec.ofNat 11 field).toNat = 0 := congrArg BitVec.toNat same
      omega
    have lead : (1#1 ++ BitVec.ofNat 52 m).toNat = m := by
      rw [toNat_append, BitVec.toNat_ofNat]
      change 1 * 2 ^ 52 + m % 2 ^ 52 = m
      omega
    rw [if_pos full]
    unfold UnpackedFloat.unpack
    simp only [unpackExponent_packComponents, unpackMantissa_packComponents,
      unpackSign_packComponents, Sign.ofBitVec_toBitVec, special, least, if_false, lead, fieldVec,
      bias]
    congr 1
    push_cast
    omega
  · -- A mantissa with fewer bits has the least exponent, which the field zero stands for.
    have upper : m < 2 ^ 52 := by
      have short := (Nat.log2_lt apart).mpr small
      rw [← Nat.log2_lt apart]
      simp only [Format.mantissaBits] at full
      omega
    have lowest : q = -1074 := canonical.normal.resolve_left (by omega)
    have fraction : (BitVec.ofNat 52 m).toNat = m := by
      rw [BitVec.toNat_ofNat, Nat.mod_eq_of_lt upper]
    have nonzero : BitVec.ofNat 52 m ≠ 0#52 := fun same => by
      have same : (BitVec.ofNat 52 m).toNat = 0 := congrArg BitVec.toNat same
      omega
    rw [if_neg full]
    unfold UnpackedFloat.unpack
    simp only [unpackExponent_packComponents, unpackMantissa_packComponents,
      unpackSign_packComponents, Sign.ofBitVec_toBitVec, nonzero, dif_neg, not_false_iff, fraction,
      bias]
    rw [if_neg (by decide), if_pos trivial]
    congr 1
    rw [lowest]
    rfl

theorem Canonical.round_self (canonical : Canonical m q) (full : 2 ^ 52 ≤ m) :
    roundWithAccuracy .binary64 .positive m q .exact =
      .finite .positive m q canonical.positive := by
  have above : (2 : Rat) ^ ((52 : Nat) + q) ≤ m * 2 ^ q := by
    rw [← natCast_mul_two_zpow]
    exact mul_le_mul_of_nonneg_right (by exact_mod_cast full) (two_zpow_pos q).le
  exact roundWithAccuracy_eq .positive canonical (nearest_self m q) (describes_exact m) above
    (by omega)

/-- The mantissa and the exponent of a positive number. -/
def Parts (x : Float) (m : Nat) (q : Int) : Prop :=
  ∃ positive : 0 < m, x.toModel.unpack = .finite .positive m q positive

theorem toFloat_parts {n : Nat} (positive : 0 < n) (small : n < 2 ^ 53) :
    ∃ m q, Parts n.toUInt64.toFloat m q ∧ (m * 2 ^ q : Rat) = n ∧ 2 ^ 52 ≤ m := by
  have bits := (Nat.log2_lt positive.ne').mpr small
  have lower := Nat.log2_self_le positive.ne'
  have upper := Nat.lt_log2_self (n := n)
  generalize places : 52 - n.log2 = k
  have sum : n.log2 + k = 52 := by omega
  have full : 2 ^ 52 ≤ n * 2 ^ k := by
    rw [← sum, pow_add]
    exact Nat.mul_le_mul_right _ lower
  have bounded : n * 2 ^ k < 2 ^ 53 := by
    rw [show 53 = n.log2 + 1 + k by omega, pow_add]
    exact Nat.mul_lt_mul_of_pos_right upper (Nat.two_pow_pos k)
  have canonical : Canonical (n * 2 ^ k) (-k) :=
    ⟨Nat.mul_pos positive (Nat.two_pow_pos k), bounded, by omega, .inl full⟩
  have value : ((n * 2 ^ k : Nat) : Rat) * 2 ^ (-k : Int) = n := by
    rw [zpow_neg, zpow_natCast]
    push_cast
    field_simp
  refine ⟨n * 2 ^ k, -k, ⟨canonical.positive, ?_⟩, value, full⟩
  have same : n.toUInt64.toNat = n := by
    simp
    omega
  have converted : UnpackedFloat.ofUInt64 .binary64 n.toUInt64 =
      .finite .positive (n * 2 ^ k) (-k) canonical.positive := by
    have above : compare (n : Int) 0 = .gt := by
      rw [Int.compare_eq_gt]
      omega
    have target : max ((n.log2 : Int) + 0 - 52) (-1074) = -(k : Int) := by omega
    have shift : (- -(k : Int)).toNat = k := by omega
    rw [UnpackedFloat.ofUInt64, same, UnpackedFloat.ofNat, UnpackedFloat.ofInt,
      UnpackedFloat.normalize, above]
    simp only [UnpackedFloat.round, Int.toNat_natCast, targetExponent_eq, target,
      decreaseExponent, zero_sub, shift, Nat.shiftLeft_eq]
    exact canonical.round_self full
  change (Float.Model.pack (UnpackedFloat.ofUInt64 .binary64 n.toUInt64)).unpack = _
  rw [converted]
  exact canonical.unpack_pack (by omega) .positive

def isExactly (x : Float) (n : Nat) : Bool :=
  match x.toModel.unpack with
  | .finite .positive m q _ => m * 2 ^ q.toNat = n * 2 ^ (-q).toNat
  | _ => false

theorem parts_of_isExactly {x : Float} {n : Nat} (exact : isExactly x n = true) :
    ∃ m q, Parts x m q ∧ (m * 2 ^ q : Rat) = n := by
  unfold isExactly at exact
  split at exact
  · next m q positive parts =>
    refine ⟨m, q, ⟨positive, parts⟩, ?_⟩
    have power := zpow_eq_div 2 q
    have scaled : ((m * 2 ^ q.toNat : Nat) : Rat) = (n * 2 ^ (-q).toNat : Nat) := by
      rw [of_decide_eq_true exact]
    push_cast at power scaled
    rw [power, mul_div_assoc', div_eq_iff (by positivity), scaled]
  · cases exact

-- The table is short, so its entries are compared one by one.
theorem powersOfTen_exact :
    ∀ e : Fin Float.exactlyRepresentablePowersOfTen.size,
      isExactly Float.exactlyRepresentablePowersOfTen[e] (10 ^ e.val) = true := by
  decide +kernel

end Parametric.Rounding
