import Parametric.Identifier
import Parametric.Proofs.Text.Digits
/-! An identifier is read back from its text. -/

set_option autoImplicit false

namespace Parametric.Id

theorem length_hyphenate (sizes : List Nat) (cs : List Char) (fits : sizes.sum ≤ cs.length) :
    (hyphenate sizes cs).length = cs.length + (sizes.length - 1) := by
  induction sizes generalizing cs with
  | nil => rfl
  | cons size sizes ih =>
    cases sizes with
    | nil => rfl
    | cons next sizes =>
      rw [List.sum_cons] at fits
      have rest := ih (cs.drop size) (by rw [List.length_drop]; omega)
      simp only [hyphenate, List.length_append, List.length_cons, List.length_take, rest,
        List.length_drop]
      omega

theorem unhyphenate?_hyphenate {sizes : List Nat} (some : sizes ≠ []) {cs : List Char}
    (fits : cs.length = sizes.sum) : unhyphenate? sizes (hyphenate sizes cs) = .some cs := by
  induction sizes generalizing cs with
  | nil => contradiction
  | cons size sizes ih =>
    cases sizes with
    | nil => simp_all [hyphenate, unhyphenate?]
    | cons next sizes =>
      rw [List.sum_cons] at fits
      have front : (cs.take size).length = size := by
        rw [List.length_take]
        omega
      have tail : (cs.drop size).length = (next :: sizes).sum := by
        rw [List.length_drop]
        omega
      have rest := ih (List.cons_ne_nil _ _) tail
      have dropped : (cs.take size ++ '-' :: hyphenate (next :: sizes) (cs.drop size)).drop size =
          '-' :: hyphenate (next :: sizes) (cs.drop size) := List.drop_left' front
      have taken : (cs.take size ++ '-' :: hyphenate (next :: sizes) (cs.drop size)).take size =
          cs.take size := List.take_left' front
      rw [hyphenate, unhyphenate?, dropped]
      · change (unhyphenate? _ (hyphenate (next :: sizes) (cs.drop size))).map _ = _
        rw [rest, taken, Option.map_some, List.take_append_drop]
      all_goals simp

theorem ofText?_text {kind : IdKind} (id : Id kind) : ofText? id.text = some id := by
  have digits : (Text.hexDigits 32 id.bits.toNat).length = groups.sum := by simp [groups]
  have length : (hyphenate groups (Text.hexDigits 32 id.bits.toNat)).length = 36 := by
    rw [length_hyphenate _ _ (Nat.le_of_eq digits.symm), digits]
    rfl
  have split := unhyphenate?_hyphenate (by decide) digits
  have small : id.bits.toNat < 16 ^ 32 := id.bits.isLt
  have value : Text.hexNumber? (Text.hexDigits 32 id.bits.toNat) = some id.bits.toNat := by
    rw [Text.hexNumber?_hexDigits, Nat.mod_eq_of_lt small]
  unfold ofText? text
  rw [String.toList_ofList]
  simp only [length, unwrap?]
  rw [if_neg (by decide), if_pos trivial, Option.bind_some, split, Option.bind_some, value]
  simp

end Parametric.Id
