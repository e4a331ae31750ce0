import Parametric.Proofs.Formula.Renaming
/-! A renaming in a text is taken back by the opposite one.

The renaming goes by whole words, whatever else stands in the text. A word is a longest run of word
characters, and a renaming keeps where words start and end. So the new name stands afterwards where
the old one was replaced, and nowhere else if it was no word of the text before.
-/

set_option autoImplicit false

namespace Parametric.Formula

open Token Text

variable {old fresh cs rest : List Char} {before : Option Char} {c : Char}

def hasWord (name : List Char) (before : Option Char) : List Char → Bool
  | [] => standsAt name before []
  | c :: rest => standsAt name before (c :: rest) || hasWord name (some c) rest

theorem hasWord_append (front : List Char)
    (absent : hasWord fresh before (front ++ rest) = false) :
    hasWord fresh (lastOf before front) rest = false := by
  induction front generalizing before with
  | nil => exact absent
  | cons c front ih => exact ih (Bool.or_eq_false_iff.mp absent).2

theorem any_lastOf (word : Word cs) (before : Option Char) :
    (lastOf before cs).any isWordCharacter = true := by
  obtain ⟨c, rest, same, -⟩ := word.starts
  obtain ⟨front, last, rfl⟩ := (List.eq_nil_or_concat cs).resolve_left (same ▸ List.cons_ne_nil _ _)
  rw [List.concat_eq_append, lastOf_append]
  exact word.isWordCharacter last (by simp)

/-! ## What a renaming keeps -/

theorem takeWhile_renameFrom (word : Word old) (within : before.any isWordCharacter = true) :
    (renameFrom old fresh before 0 cs).takeWhile isWordCharacter =
      cs.takeWhile isWordCharacter := by
  induction cs generalizing before with
  | nil => rw [renameFrom_nil word]
  | cons c cs ih =>
    have copied : standsAt old before (c :: cs) = false := by
      by_contra stands
      have free := ((standsAt_eq_true word).mp (Bool.not_eq_false _ ▸ stands)).1
      rw [within] at free
      cases free
    rw [renameFrom_copy copied, List.takeWhile_cons, List.takeWhile_cons]
    split
    · next continues =>
      have inside : (some c).any isWordCharacter = true := continues
      rw [ih inside]
    · rfl

theorem head?_renameFrom (word : Word old) (within : before.any isWordCharacter = true)
    (ends : cs.head?.any isWordCharacter = false) :
    (renameFrom old fresh before 0 cs).head?.any isWordCharacter = false := by
  rw [head?_any_eq_false, takeWhile_renameFrom word within, head?_any_eq_false.mp ends]

theorem isCalled_of_startsName (starts : startsName c = true) : isCalled (c :: rest) = false := by
  have bounds := startsName_bounds starts
  have apart : c ≠ '(' := by
    rintro rfl
    exact absurd starts (by decide)
  have visible : isBlank c = false := isBlank_of_ascii (by omega) (by omega)
  simp [isCalled, trimStart, visible, apart]

theorem isCalled_cons_congr (c : Char) {others : List Char} (same : isCalled cs = isCalled others) :
    isCalled (c :: cs) = isCalled (c :: others) := by
  unfold isCalled trimStart at same ⊢
  cases blank : isBlank c with
  | true => rw [List.dropWhile_cons_of_pos blank, List.dropWhile_cons_of_pos blank, same]
  | false => simp [blank]

theorem isCalled_renameFrom (wordOld : Word old) (wordFresh : Word fresh) :
    isCalled (renameFrom old fresh before 0 cs) = isCalled cs := by
  induction cs generalizing before with
  | nil => rw [renameFrom_nil wordOld]
  | cons c cs ih =>
    cases replaced : replacesAt old before (c :: cs) with
    | false =>
      rw [renameFrom_kept wordOld replaced]
      exact isCalled_cons_congr c ih
    | true =>
      obtain ⟨rest, split, free, ends, uncalled⟩ := (replacesAt_eq_true wordOld).mp replaced
      obtain ⟨d, tail, lettersOld, startsOld⟩ := wordOld.starts
      obtain ⟨e, more, lettersFresh, startsFresh⟩ := wordFresh.starts
      rw [split, renameFrom_same wordOld free ends, uncalled, if_neg Bool.false_ne_true, lettersOld,
        lettersFresh, List.cons_append, List.cons_append, isCalled_of_startsName startsOld,
        isCalled_of_startsName startsFresh]

/-! ## There and back -/

theorem standsAt_renameFrom {other : Option Char} (wordOld : Word old) (wordFresh : Word fresh)
    (absent : standsAt fresh before (c :: cs) = false)
    (same : other.any isWordCharacter = before.any isWordCharacter) :
    standsAt fresh other (c :: renameFrom old fresh (some c) 0 cs) = false := by
  have run : (c :: renameFrom old fresh (some c) 0 cs).takeWhile isWordCharacter =
      (c :: cs).takeWhile isWordCharacter := by
    rw [List.takeWhile_cons, List.takeWhile_cons]
    split
    · next continues =>
      have inside : (some c).any isWordCharacter = true := continues
      rw [takeWhile_renameFrom wordOld inside]
    · rfl
  rw [Bool.eq_false_iff, ne_eq, standsAt_eq_true wordFresh] at absent ⊢
  rwa [same, run]

/-- From the same place, up to what the words are that end there, the renaming back restores the
text. -/
theorem renameFrom_renameFrom {other : Option Char} (wordOld : Word old) (wordFresh : Word fresh)
    (absent : hasWord fresh before cs = false)
    (same : other.any isWordCharacter = before.any isWordCharacter) :
    renameFrom fresh old other 0 (renameFrom old fresh before 0 cs) = cs := by
  -- A replaced name is taken as a whole, so the induction is on the length of the text.
  induction length : cs.length using Nat.strong_induction_on generalizing cs before other with
  | h n ih =>
    cases cs with
    | nil => rw [renameFrom_nil wordOld, renameFrom_nil wordFresh]
    | cons c cs =>
      cases replaced : replacesAt old before (c :: cs) with
      | false =>
        obtain ⟨here, later⟩ := Bool.or_eq_false_iff.mp absent
        have kept := standsAt_renameFrom wordOld wordFresh here same
        rw [renameFrom_kept wordOld replaced, renameFrom_copy kept,
          ih cs.length (by simp [← length]) later rfl rfl]
      | true =>
        obtain ⟨rest, split, free, ends, uncalled⟩ := (replacesAt_eq_true wordOld).mp replaced
        rw [split] at absent length ⊢
        have shorter : rest.length < n := by
          obtain ⟨d, tail, letters, -⟩ := wordOld.starts
          rw [← length, letters]
          simp
        rw [renameFrom_same wordOld free ends, uncalled, if_neg Bool.false_ne_true,
          renameFrom_same wordFresh (same.trans free)
            (head?_renameFrom wordOld (any_lastOf wordOld _) ends),
          isCalled_renameFrom wordOld wordFresh, uncalled, if_neg Bool.false_ne_true,
          ih rest.length shorter (hasWord_append old absent)
            ((any_lastOf wordFresh _).trans (any_lastOf wordOld _).symm) rfl]

theorem renameFrom_of_absent (word : Word old) (absent : hasWord old before cs = false) :
    renameFrom old fresh before 0 cs = cs := by
  induction cs generalizing before with
  | nil => exact renameFrom_nil word
  | cons c cs ih =>
    obtain ⟨here, later⟩ := Bool.or_eq_false_iff.mp absent
    rw [renameFrom_copy here, ih later]

theorem rename_rename {source old fresh : String} {takes : String → Bool}
    (oldName : isName old = true) (freshName : isName fresh = true)
    (taken : takes old = true → takes fresh = true)
    (absent : hasWord fresh.toList none source.toList = false) :
    rename (rename source old fresh takes) fresh old takes = source := by
  have wordFresh := word_of_isName freshName
  cases there : takes old with
  | true =>
    rw [rename_of_taken there, rename_of_taken (taken there), String.toList_ofList,
      renameFrom_renameFrom (word_of_isName oldName) wordFresh absent rfl, String.ofList_toList]
  | false =>
    rw [rename_of_refused there]
    cases back : takes fresh with
    | true => rw [rename_of_taken back, renameFrom_of_absent wordFresh absent, String.ofList_toList]
    | false => exact rename_of_refused back

end Parametric.Formula
