import Mathlib.Algebra.Ring.Nat
import Parametric.Text.Hexadecimal
/-! Numbers are read back from their digits.

A reader of digits goes from the value of some digits to the value of one digit
more. If it does so for every digit below the base, it undoes the writing.
-/

set_option autoImplicit false

namespace Parametric.Text

variable {base : Nat}

theorem mem_toDigits (large : 1 < base) {n : Nat} {c : Char} (member : c ∈ Nat.toDigits base n) :
    ∃ d, d < base ∧ c = Nat.digitChar d := by
  induction n using Nat.strongRecOn with
  | ind n ih =>
    by_cases small : n < base
    · rw [Nat.toDigits_of_lt_base small, List.mem_singleton] at member
      exact ⟨n, small, member⟩
    · rw [Nat.toDigits_of_base_le large (Nat.le_of_not_lt small)] at member
      rcases List.mem_append.mp member with earlier | last
      · exact ih (n / base) (Nat.div_lt_self (by omega) large) earlier
      · exact ⟨n % base, Nat.mod_lt n (by omega), List.mem_singleton.mp last⟩

theorem foldlM_toDigits (large : 1 < base) {step : Nat → Char → Option Nat}
    (reads : ∀ value d, d < base → step value (Nat.digitChar d) = some (base * value + d))
    (n : Nat) : (Nat.toDigits base n).foldlM step 0 = some n := by
  induction n using Nat.strongRecOn with
  | ind n ih =>
    by_cases small : n < base
    · rw [Nat.toDigits_of_lt_base small, List.foldlM_cons, reads 0 n small]
      simp
    · rw [Nat.toDigits_of_base_le large (Nat.le_of_not_lt small), List.foldlM_append,
        ih (n / base) (Nat.div_lt_self (by omega) large)]
      have last := reads (n / base) (n % base) (Nat.mod_lt n (by omega))
      rw [Nat.div_add_mod] at last
      simp [last]

/-! ## Hexadecimal digits -/

@[simp] theorem hexValue?_digitChar {d : Nat} (small : d < 16) :
    hexValue? (Nat.digitChar d) = some d := by
  have all : ∀ d < 16, hexValue? (Nat.digitChar d) = some d := by decide
  exact all d small

theorem hexNumber?_toDigits (n : Nat) : hexNumber? (Nat.toDigits 16 n) = some n := by
  refine foldlM_toDigits (by decide) (fun value d small => ?_) n
  rw [hexValue?_digitChar small]
  rfl

theorem hexNumber?_concat {cs : List Char} {value d : Nat} (read : hexNumber? cs = some value)
    (small : d < 16) : hexNumber? (cs ++ [Nat.digitChar d]) = some (16 * value + d) := by
  unfold hexNumber? at read ⊢
  rw [List.foldlM_append, read]
  simp [small]

theorem hexDigits_succ (count value : Nat) :
    hexDigits (count + 1) value =
      hexDigits count (value / 16) ++ [Nat.digitChar (value % 16)] := by
  have place (n : Nat) : value / 16 ^ (n + 1) = value / 16 / 16 ^ n := by
    rw [Nat.div_div_eq_div_mul, Nat.pow_succ, Nat.mul_comm]
  unfold hexDigits
  rw [List.range_succ_eq_map, List.reverse_cons, List.map_append, ← List.map_reverse, List.map_map]
  simp [Function.comp_def, place]

@[simp] theorem length_hexDigits (count value : Nat) : (hexDigits count value).length = count := by
  simp [hexDigits]

/-- The lowest digits give the number modulo a power of the base. -/
theorem hexNumber?_hexDigits (count value : Nat) :
    hexNumber? (hexDigits count value) = some (value % 16 ^ count) := by
  induction count generalizing value with
  | zero => simp [hexDigits, hexNumber?, Nat.mod_one]
  | succ count ih =>
    rw [hexDigits_succ, hexNumber?_concat (ih _) (Nat.mod_lt _ (by decide)), Nat.pow_succ,
      Nat.mul_comm (16 ^ count), Nat.mod_mul, Nat.add_comm]

end Parametric.Text
