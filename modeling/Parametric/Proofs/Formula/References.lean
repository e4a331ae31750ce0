import Parametric.Proofs.Formula.Renaming
import Parametric.Proofs.Outcome
/-! The renaming in a text replaces the references to a name.

A reference is a name that is not called. The renaming finds all of them and nothing else, with
one exception: in a numeral such as `1.e5`, the mark of the exponent stands directly behind the
point, so it looks like the start of a word. There the renaming cuts the numeral apart.
-/

set_option autoImplicit false

namespace Parametric.Formula

open Token

variable {old fresh : List Char} {before : Option Char} {front rest : List Char}

/-! ## A replacement behind a point -/

theorem length_le_of_initial (word : Word old) (initial : old <+: front ++ '.' :: rest) :
    old.length ≤ front.length := by
  rcases List.prefix_or_prefix_of_prefix initial (List.prefix_append front _) with
    within | ⟨more, rfl⟩
  · exact within.length_le
  · cases more with
    | nil => simp
    | cons c more =>
      obtain ⟨rfl, -⟩ := List.cons_prefix_cons.mp ((List.prefix_append_right_inj front).mp initial)
      exact absurd (word.continues '.' (by simp)) (by decide)

theorem renameFrom_behind_point (word : Word old) (skipped : Nat) (ends : skipped ≤ front.length)
    (replaced : replacesAt old (some '.') rest = true) :
    ∃ out more, renameFrom old fresh before skipped (front ++ '.' :: rest) =
      out ++ '.' :: (fresh ++ more) := by
  have some : old.isEmpty = false := by
    obtain ⟨c, tail, rfl, -⟩ := word.starts
    rfl
  induction front generalizing before skipped with
  | nil =>
    obtain rfl := Nat.le_zero.mp ends
    obtain ⟨d, tail, rfl, -⟩ := exists_of_replacesAt word replaced
    obtain ⟨stands, uncalled⟩ := Bool.and_eq_true_iff.mp replaced
    rw [Bool.not_eq_true'] at uncalled
    rw [List.nil_append, renameFrom_copy (standsAt_of_noStart word (by decide)), renameFrom,
      if_neg (Nat.lt_irrefl 0), if_pos stands, uncalled, some]
    exact ⟨[], _, rfl⟩
  | cons c front ih =>
    rw [List.cons_append, renameFrom]
    split
    · exact ih _ (by simp only [List.length_cons] at ends; omega)
    · split
      · next stands =>
        have inside : old.length ≤ (c :: front).length := by
          unfold standsAt at stands
          rw [Bool.and_eq_true, Bool.and_eq_true] at stands
          exact length_le_of_initial word (List.isPrefixOf_iff_prefix.mp stands.1.2)
        obtain ⟨out, more, same⟩ := ih (old.length - 1) (by
          rw [List.length_cons] at inside
          omega)
        rw [some, if_neg Bool.false_ne_true, same, ← List.append_assoc]
        exact ⟨_, more, rfl⟩
      · obtain ⟨out, more, same⟩ := ih 0 (Nat.zero_le _)
        rw [same]
        exact ⟨c :: out, more, rfl⟩

/-! ## References -/

/-- In a text that parses, no name but the mark of an exponent starts behind a point. -/
theorem behind_point {source : String} {e : Expr} (parsed : parse source = .ok e) {d : Char}
    (split : source.toList = front ++ '.' :: d :: rest) (starts : startsName d = true) :
    d = 'e' ∨ d = 'E' := by
  obtain ⟨tokens, scanned, derived⟩ := parse_eq_ok.mp parsed
  exact ((tokenized_of_allFrom scanned).behind_point derived.apart split starts).1

/-- The renaming in a text replaces the references in its tree and nothing else, calls included,
unless the text has the name as a word directly behind a point. That is the exponent of a numeral.
It is replaced too, and what comes out does not parse unless the new name starts like an exponent
as well. A name that the pattern engine refuses is not replaced anywhere. -/
theorem rename_references {source old fresh : String} {takes : String → Bool} {e : Expr}
    (parsed : parse source = .ok e) (oldName : isName old = true)
    (freshName : isName fresh = true) :
    (takes old = false → rename source old fresh takes = source) ∧
    (takes old = true → replacesBehindPoint old.toList source.toList = false →
      parse (rename source old fresh takes) = .ok (e.rename (renamed old fresh))) ∧
    (takes old = true → replacesBehindPoint old.toList source.toList = true →
      (old.toList.head? = some 'e' ∨ old.toList.head? = some 'E') ∧
      (fresh.toList.head? ≠ some 'e' → fresh.toList.head? ≠ some 'E' →
        ∀ other, parse (rename source old fresh takes) ≠ .ok other)) := by
  refine ⟨rename_of_refused, parse_rename parsed oldName freshName, fun taken replaced => ?_⟩
  have word := word_of_isName oldName
  obtain ⟨front, rest, split, there⟩ := replacesBehindPoint_eq_true.mp replaced
  constructor
  · obtain ⟨d, tail, rfl, starts, first⟩ := exists_of_replacesAt word there
    rcases behind_point parsed split starts with rfl | rfl
    · exact .inl first
    · exact .inr first
  · intro noMark noCapital other reparsed
    obtain ⟨out, more, same⟩ : ∃ out more, renameFrom old.toList fresh.toList none 0
        (front ++ '.' :: rest) = out ++ '.' :: (fresh.toList ++ more) :=
      renameFrom_behind_point word 0 (Nat.zero_le _) there
    obtain ⟨d, tail, letters, starts⟩ := (word_of_isName freshName).starts
    have text : (rename source old fresh takes).toList = out ++ '.' :: d :: (tail ++ more) := by
      rw [rename_of_taken taken, String.toList_ofList, split, same, letters, List.cons_append]
    rw [letters] at noMark noCapital
    rcases behind_point reparsed text starts with rfl | rfl
    · exact noMark rfl
    · exact noCapital rfl

theorem rename_references_exponent :
    let takes (word : String) := decide (word.length ≤ 1000)
    (∃ e, parse "2.5e5 * e5 + e5 (e5)" = .ok e ∧
      parse "2.5e5 * x + e5 (x)" = .ok (e.rename (renamed "e5" "x"))) ∧
    ∀ other, parse (rename "e5 + 1.e5" "e5" "x" takes) ≠ .ok other := by
  intro takes
  have taken : takes "e5" = true := by decide
  have oldName : isName "e5" = true := by decide
  have freshName : isName "x" = true := by decide
  constructor
  · obtain ⟨e, parsed⟩ : ∃ e, parse "2.5e5 * e5 + e5 (e5)" = .ok e :=
      ok_of_isOk (by decide +kernel)
    have text : rename "2.5e5 * e5 + e5 (e5)" "e5" "x" takes = "2.5e5 * x + e5 (x)" := by
      decide +kernel
    refine ⟨e, parsed, ?_⟩
    rw [← text]
    exact (rename_references parsed oldName freshName).2.1 taken (by decide +kernel)
  · obtain ⟨e, parsed⟩ : ∃ e, parse "e5 + 1.e5" = .ok e := ok_of_isOk (by decide +kernel)
    have replaced : replacesBehindPoint "e5".toList "e5 + 1.e5".toList = true := by decide +kernel
    obtain ⟨-, unparsed⟩ := (rename_references parsed oldName freshName).2.2 taken replaced
    exact unparsed (by decide) (by decide)

/-- A numeral without any reference in it is cut apart, or changes its value. -/
theorem exponent_replaced :
    isName "e5" = true ∧ isName "x" = true ∧ isName "e7" = true ∧
    evaluate "1.e5" (fun _ => none) = .ok 100000.0 ∧
    rename "1.e5" "e5" "x" = "1.x" ∧ (∀ e, parse "1.x" ≠ .ok e) ∧
    evaluate (rename "1.e5" "e5" "e7") (fun _ => none) = .ok 10000000.0 := by
  have unparsed : (parse "1.x").isOk = false := by decide +kernel
  refine ⟨by decide, by decide, by decide, by decide +kernel, by decide +kernel, ?_,
    by decide +kernel⟩
  intro e parsed
  rw [parsed] at unparsed
  cases unparsed

end Parametric.Formula
