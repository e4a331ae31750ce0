import Parametric.Proofs.Ron.Skipping
/-! A natural number is passed over.

Who passes over a number takes the longest run of digits, of any base, or else a decimal number.
Before a text that ends a value that is the natural number which is read there.
-/

set_option autoImplicit false

namespace Parametric.Ron.Reader

variable {extensions : Extensions} {cs rest more : List Char} {limit n : Nat} {c : Char}

theorem isDigit_of_hexValue {v : Nat} (value : Text.hexValue? c = some v) (small : v < 10) :
    c.isDigit = true := by
  unfold Text.hexValue? at value
  split_ifs at value with digit <;> cases value
  · simpa [Char.isDigit, Char.le_def] using digit
  · omega
  · omega

theorem ne_of_isDigit {d : Char} (digit : c.isDigit = true) (other : d.isDigit = false) :
    c ≠ d := by
  rintro rfl
  rw [digit] at other
  cases other

theorem noStart_of_isDigit (digit : c.isDigit = true) : startsWord c = false := by
  rw [Bool.eq_false_iff]
  intro starts
  rcases Bool.or_eq_true_iff.mp starts with letter | underscore
  · simp only [Char.isAlpha, Char.isUpper, Char.isLower, Char.isDigit, Bool.and_eq_true,
      Bool.or_eq_true, decide_eq_true_eq, ge_iff_le, UInt32.le_iff_toNat_le] at letter digit
    simp only [Char.reduceVal, UInt32.reduceToNat] at letter digit
    omega
  · exact ne_of_isDigit digit rfl (of_decide_eq_true underscore)

theorem head_of_naturalBelow (read : naturalBelow limit cs = some (n, rest)) :
    ∃ c more, cs = c :: more ∧ c.isDigit = true := by
  unfold naturalBelow at read
  split at read
  next radix digits base =>
  split at base
  · exact ⟨_, _, rfl, rfl⟩
  · exact ⟨_, _, rfl, rfl⟩
  · exact ⟨_, _, rfl, rfl⟩
  · cases base
    dsimp only at read
    cases cs with
    | nil => cases read
    | cons c more =>
      split at read
      · cases read
      next some =>
      have inside : continuesInteger c = true := by
        by_contra outside
        simp [List.takeWhile_cons_of_neg outside] at some
      rw [List.takeWhile_cons_of_pos inside] at some read
      have noMark : c ≠ '_' := by
        rintro rfl
        simp at some
      obtain ⟨value, number, _⟩ := Option.bind_eq_some_iff.mp read
      rw [List.filter_cons_of_pos (by simpa using noMark), List.foldlM_cons] at number
      obtain ⟨_, first, _⟩ := Option.bind_eq_some_iff.mp number
      obtain ⟨v, first, _⟩ := Option.map_eq_some_iff.mp first
      obtain ⟨value, small⟩ := Option.filter_eq_some_iff.mp first
      exact ⟨c, more, rfl, isDigit_of_hexValue value (of_decide_eq_true small)⟩

theorem naturalBelow_mono {limit' : Nat} (le : limit ≤ limit')
    (read : naturalBelow limit cs = some (n, rest)) : naturalBelow limit' cs = some (n, rest) := by
  unfold naturalBelow at read ⊢
  split at read
  next radix digits base =>
  dsimp only at read ⊢
  split at read
  · cases read
  · next some =>
    rw [if_neg some]
    obtain ⟨value, number, read⟩ := Option.bind_eq_some_iff.mp read
    split at read
    · next small =>
      cases read
      exact Option.bind_eq_some_iff.mpr ⟨_, number, if_pos (Nat.lt_of_lt_of_le small le)⟩
    · cases read

theorem decimal_le_integer (read : naturalBelow limit cs = some (n, rest)) (ends : Ends rest) :
    (cs.takeWhile continuesDecimal).length ≤ (cs.takeWhile continuesInteger).length := by
  unfold naturalBelow at read
  split at read
  next radix digits base =>
  split at base
  · exact Nat.le_refl 1
  · exact Nat.le_add_left 1 _
  · exact Nat.le_refl 1
  · cases base
    dsimp only at read
    split at read
    · cases read
    obtain ⟨value, _, read⟩ := Option.bind_eq_some_iff.mp read
    split at read
    · cases read
      rw [drop_takeWhile] at ends
      refine length_takeWhile_le fun c first => ?_
      rw [Bool.eq_false_iff]
      intro decimal
      have plain := continuesRawWord_of_decimal decimal
      rw [ends.noRun c first] at plain
      cases plain
    · cases read

theorem skip_of_digit (front : cs = c :: more) (digit : c.isDigit = true) (levels : Nat) :
    skip extensions levels cs = anyNumber cs := by
  subst front
  have noWord : tookWord ["true", "false", "None", "inf", "-inf", "NaN"] (c :: more) =
      some (false, c :: more) := by
    have none : ["true", "false", "None", "inf", "-inf", "NaN"].find? (atWord · (c :: more)) =
        none := by
      rw [List.find?_eq_none]
      intro word listed here
      obtain ⟨d, letter, first⟩ := head?_of_listed listed here
      cases first
      have all : ∀ d ∈ ['t', 'f', 'N', 'i', '-'], d.isDigit = false := by simp
      exact ne_of_isDigit digit (all _ letter) rfl
    rw [tookWord, none]
  have noMark : atWord "Some" (c :: more) = false := by
    rw [Bool.eq_false_iff]
    intro here
    exact ne_of_isDigit digit rfl (Option.some.inj (head?_of_atWord (c := 'S') rfl here))
  have noEmpty : took "()" (c :: more) = some (false, c :: more) := by
    refine took_none (Bool.eq_false_iff.mpr fun front => ?_)
    obtain ⟨tail, same⟩ := List.isPrefixOf_iff_prefix.mp front
    exact ne_of_isDigit digit rfl (List.cons.inj same).1.symm
  have noName : name (c :: more) = none := by
    cases found : name (c :: more) with
    | none => rfl
    | some read =>
      cases named found with
      | plain front starts =>
        cases front
        rw [noStart_of_isDigit digit] at starts
        cases starts
      | raw front => exact absurd (List.cons.inj front).1 (ne_of_isDigit digit rfl)
  rw [skip_eq, skipOf, bind_eq noWord, if_neg Bool.false_ne_true, bind_eq noEmpty,
    if_neg Bool.false_ne_true, bind_eq (get_eq _), if_neg (Bool.eq_false_iff.mp noMark),
    bind_eq (get_eq _), noName, if_neg (by decide), bind_eq (next?_eq _), List.head?_cons]
  generalize first : some c = next
  split
  case h_8 => rfl
  all_goals
    cases first
    cases digit

theorem anyNumber_of_natural (le : limit ≤ Nat.pow 2 64)
    (read : naturalBelow limit cs = some (n, rest)) (ends : Ends rest) :
    anyNumber cs = some ((), rest) := by
  obtain ⟨c, more, rfl, digit⟩ := head_of_naturalBelow read
  have short := decimal_le_integer read ends
  unfold anyNumber
  split
  next digits limit' sign =>
  split at sign
  · next same => exact absurd (List.cons.inj same).1 (ne_of_isDigit digit rfl)
  · next same => exact absurd (List.cons.inj same).1 (ne_of_isDigit digit rfl)
  · cases sign
    dsimp only
    rw [if_neg (Nat.not_lt.mpr short), naturalBelow_mono le read]

theorem skip_natural {width : Nat} (le : width ≤ 64) (read : natural width cs = some (n, rest))
    (ends : Ends rest) (levels : Nat) : skip extensions levels cs = some ((), rest) := by
  obtain ⟨c, more, front, digit⟩ := head_of_naturalBelow read
  rw [skip_of_digit front digit]
  exact anyNumber_of_natural (Nat.pow_le_pow_right (by decide) le) read ends

end Parametric.Ron.Reader
