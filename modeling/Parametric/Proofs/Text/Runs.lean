import Mathlib.Data.List.Basic
/-! The longest run of some characters at the front of a text. -/

set_option autoImplicit false

namespace Parametric

variable {p : Char → Bool} {cs rest : List Char}

theorem takeWhile_stops (all : ∀ c ∈ cs, p c = true) (ends : ∀ c ∈ rest.head?, p c = false) :
    (cs ++ rest).takeWhile p = cs := by
  rw [List.takeWhile_append_of_pos all]
  cases rest with
  | nil => simp
  | cons c tail => simp [ends c rfl]

theorem dropWhile_stops (all : ∀ c ∈ cs, p c = true) (ends : ∀ c ∈ rest.head?, p c = false) :
    (cs ++ rest).dropWhile p = rest := by
  rw [List.dropWhile_append_of_pos all]
  cases rest with
  | nil => rfl
  | cons c tail => simp [ends c rfl]

theorem drop_takeWhile (p : Char → Bool) (cs : List Char) :
    cs.drop (cs.takeWhile p).length = cs.dropWhile p :=
  calc cs.drop (cs.takeWhile p).length
      = (cs.takeWhile p ++ cs.dropWhile p).drop (cs.takeWhile p).length := by
        rw [List.takeWhile_append_dropWhile]
    _ = cs.dropWhile p := List.drop_left

theorem dropWhile_head (p : Char → Bool) (cs : List Char) :
    ∀ c ∈ (cs.dropWhile p).head?, p c = false := by
  intro c first
  have stops := List.head?_dropWhile_not p cs
  rw [Option.mem_def.mp first] at stops
  exact stops

theorem length_takeWhile_le {q : Char → Bool}
    (stops : ∀ c ∈ (cs.dropWhile q).head?, p c = false) :
    (cs.takeWhile p).length ≤ (cs.takeWhile q).length := by
  induction cs with
  | nil => exact Nat.le_refl 0
  | cons c cs ih =>
    cases inside : q c with
    | false =>
      rw [List.dropWhile_cons_of_neg (by simp [inside])] at stops
      rw [List.takeWhile_cons_of_neg (by simp [stops c rfl])]
      exact Nat.zero_le _
    | true =>
      rw [List.dropWhile_cons_of_pos inside] at stops
      rw [List.takeWhile_cons_of_pos inside, List.takeWhile_cons]
      split
      · exact Nat.succ_le_succ (ih stops)
      · exact Nat.zero_le _

end Parametric
