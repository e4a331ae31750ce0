import Parametric.Proofs.Number.Binary
/-! Numbers compared as numbers: a NaN differs from itself, and zeros have no sign. -/

set_option autoImplicit false

namespace Parametric

open Float.Model Float.Model.UnpackedFloat

def withoutZeroSign (x : Float) : Float :=
  if x = -0.0 then 0.0 else x

theorem toModel_unpack_injective {x y : Float} (same : x.toModel.unpack = y.toModel.unpack) :
    x = y := by
  rw [← pack_unpack x, same, pack_unpack]

theorem isNaN_eq_false_iff {x : Float} : x.isNaN = false ↔ x.toModel.unpack ≠ .notANumber := by
  change UnpackedFloat.isNaN x.toModel.unpack = false ↔ _
  cases x.toModel.unpack <;> simp [UnpackedFloat.isNaN]

theorem unpack_zero : (0.0 : Float).toModel.unpack = .zero .positive :=
  rfl

theorem unpack_negativeZero : (-0.0 : Float).toModel.unpack = .zero .negative :=
  rfl

theorem float_beq_iff {x y : Float} : (x == y) = true ↔
    x.isNaN = false ∧ y.isNaN = false ∧ withoutZeroSign x = withoutZeroSign y := by
  have zero {x : Float} : x = 0.0 ↔ x.toModel.unpack = .zero .positive :=
    ⟨fun same => same ▸ unpack_zero,
      fun same => toModel_unpack_injective (same.trans unpack_zero.symm)⟩
  have negativeZero {x : Float} : x = -0.0 ↔ x.toModel.unpack = .zero .negative :=
    ⟨fun same => same ▸ unpack_negativeZero,
      fun same => toModel_unpack_injective (same.trans unpack_negativeZero.symm)⟩
  have equal : x = y ↔ x.toModel.unpack = y.toModel.unpack :=
    ⟨fun same => same ▸ rfl, toModel_unpack_injective⟩
  rw [isNaN_eq_false_iff, isNaN_eq_false_iff]
  change UnpackedFloat.beq x.toModel.unpack y.toModel.unpack = true ↔ _
  rw [beq_iff_ne_notANumber_and_eq, ← equal, ← zero, ← zero, ← negativeZero, ← negativeZero]
  have apart : (-0.0 : Float) ≠ 0.0 := by decide
  unfold withoutZeroSign
  split_ifs <;> grind

end Parametric
