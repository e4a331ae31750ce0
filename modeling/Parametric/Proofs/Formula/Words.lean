import Parametric.Formula.Rename
import Parametric.Proofs.Formula.Scanning
/-! Where the renaming in a text finds a name.

The renaming looks at the boundaries of words and knows nothing of tokens. A
name between characters of no word is found whole. A numeral offers no place for
a name, except directly behind its point, where the mark of an exponent may stand.
-/

set_option autoImplicit false

namespace Parametric

/-! ## Words and what separates them -/

namespace Text

theorem isWordCharacter_of_continuesName {c : Char} (continues : Token.continuesName c = true) :
    isWordCharacter c = true := by
  have range : ∃ range ∈ [(48, 57), (65, 90), (95, 95), (97, 122)],
      range.1 ≤ c.toNat ∧ c.toNat ≤ range.2 := by
    simp only [Token.continuesName, Char.isAlphanum, Char.isAlpha, Char.isUpper, Char.isLower,
      Bool.or_eq_true, Bool.and_eq_true, decide_eq_true_eq] at continues
    rcases continues with ((⟨low, high⟩ | ⟨low, high⟩) | digit) | rfl
    · exact ⟨(65, 90), by simp, low, high⟩
    · exact ⟨(97, 122), by simp, low, high⟩
    · exact ⟨(48, 57), by simp, Char.isDigit_iff_toNat.mp digit⟩
    · exact ⟨(95, 95), by simp, by decide, by decide⟩
  obtain ⟨range, listed, low, high⟩ := range
  have block : range ∈ wordBlock1 := by
    have included : [(48, 57), (65, 90), (95, 95), (97, 122)] ⊆ wordBlock1 := by decide
    exact included listed
  refine List.any_eq_true.mpr ⟨wordBlock1, by simp [wordRanges], ?_⟩
  exact List.any_eq_true.mpr ⟨range, block, by simp [low, high]⟩

theorem isWordCharacter_of_isBlank {c : Char} (blank : isBlank c = true) :
    isWordCharacter c = false := by
  have apart : ∀ gap ∈ blankRanges, ∀ block ∈ wordRanges, ∀ range ∈ block,
      gap.2 < range.1 ∨ range.2 < gap.1 := by decide +kernel
  obtain ⟨gap, listed, inside⟩ := List.any_eq_true.mp blank
  simp only [Bool.and_eq_true, decide_eq_true_eq] at inside
  refine List.any_eq_false.mpr fun block member => ?_
  rw [Bool.not_eq_true]
  refine List.any_eq_false.mpr fun range there => ?_
  have outside := apart gap listed block member range there
  simp only [Bool.and_eq_true, decide_eq_true_eq]
  omega

theorem isWordCharacter_symbol (s : Symbol) : isWordCharacter s.char = false := by
  cases s <;> decide +kernel

end Text

namespace Formula

open Token

/-- A name as a list of characters. -/
structure Word (cs : List Char) : Prop where
  starts : ∃ c rest, cs = c :: rest ∧ startsName c = true
  continues : ∀ c ∈ cs, continuesName c = true

theorem word_of_isName {name : String} (is : isName name = true) : Word name.toList := by
  unfold isName at is
  split at is
  · cases is
  · next c rest letters =>
    obtain ⟨starts, continues⟩ := Bool.and_eq_true_iff.mp is
    have first : continuesName c = true := by
      simp only [startsName, Bool.or_eq_true] at starts
      simp only [continuesName, Char.isAlphanum, Bool.or_eq_true]
      tauto
    rw [letters]
    exact ⟨⟨c, rest, rfl, starts⟩, List.forall_mem_cons.mpr ⟨first, List.all_eq_true.mp continues⟩⟩

theorem Word.isWordCharacter {cs : List Char} (word : Word cs) :
    ∀ c ∈ cs, Text.isWordCharacter c = true :=
  fun c member => Text.isWordCharacter_of_continuesName (word.continues c member)

def lastOf (before : Option Char) (cs : List Char) : Option Char :=
  cs.foldl (fun _ c => some c) before

theorem lastOf_append (before : Option Char) (ls rs : List Char) :
    lastOf before (ls ++ rs) = lastOf (lastOf before ls) rs :=
  List.foldl_append ..

/-! ## Places where a name stands -/

section

variable {old fresh : List Char} {before : Option Char} {c : Char} {cs rest : List Char}

theorem head?_any_eq_false : cs.head?.any Text.isWordCharacter = false ↔
    cs.takeWhile Text.isWordCharacter = [] := by
  cases cs with
  | nil => simp
  | cons c cs => simp [List.takeWhile_cons]

theorem takeWhile_word (word : Word cs) (ends : rest.head?.any Text.isWordCharacter = false) :
    (cs ++ rest).takeWhile Text.isWordCharacter = cs := by
  rw [List.takeWhile_append_of_pos word.isWordCharacter, head?_any_eq_false.mp ends,
    List.append_nil]

theorem exists_of_takeWhile (word : Word old)
    (run : cs.takeWhile Text.isWordCharacter = old) :
    ∃ rest, cs = old ++ rest ∧ rest.head?.any Text.isWordCharacter = false := by
  obtain ⟨rest, rfl⟩ : old <+: cs := run ▸ List.takeWhile_prefix _
  rw [List.takeWhile_append_of_pos word.isWordCharacter] at run
  exact ⟨rest, rfl, head?_any_eq_false.mpr (List.append_right_eq_self.mp run)⟩

theorem getLast?_word (before : Option Char) (word : Word old) :
    (old.getLast? <|> before).any Text.isWordCharacter = true := by
  obtain ⟨c, tail, rfl, _⟩ := word.starts
  rw [List.getLast?_eq_some_getLast (List.cons_ne_nil c tail)]
  exact word.isWordCharacter _ (List.getLast_mem _)

theorem standsAt_eq_true (word : Word old) : standsAt old before cs = true ↔
    before.any Text.isWordCharacter = false ∧ cs.takeWhile Text.isWordCharacter = old := by
  have last := getLast?_word before word
  obtain ⟨first, tail, letters, -⟩ := word.starts
  have within : Text.isWordCharacter first = true := word.isWordCharacter first (by simp [letters])
  unfold standsAt
  rw [Bool.and_eq_true, Bool.and_eq_true]
  constructor
  · rintro ⟨⟨start, front⟩, stop⟩
    obtain ⟨rest, rfl⟩ := List.isPrefixOf_iff_prefix.mp front
    rw [List.drop_left, isBoundary, last] at stop
    constructor
    · simpa [isBoundary, letters, within] using start
    · exact takeWhile_word word (by simpa using stop)
  · rintro ⟨free, run⟩
    obtain ⟨rest, rfl, ends⟩ := exists_of_takeWhile word run
    refine ⟨⟨?_, List.isPrefixOf_iff_prefix.mpr (List.prefix_append _ _)⟩, ?_⟩
    · simp [isBoundary, letters, within, free]
    · rw [List.drop_left, isBoundary, last, ends]
      rfl

theorem standsAt_iff (word : Word old) : standsAt old before cs = true ↔
    before.any Text.isWordCharacter = false ∧
      ∃ rest, cs = old ++ rest ∧ rest.head?.any Text.isWordCharacter = false := by
  rw [standsAt_eq_true word]
  refine and_congr_right fun _ => ⟨exists_of_takeWhile word, ?_⟩
  rintro ⟨rest, rfl, ends⟩
  exact takeWhile_word word ends

theorem standsAt_nil (word : Word old) : standsAt old before [] = false := by
  obtain ⟨c, rest, rfl, _⟩ := word.starts
  simp [standsAt]

theorem standsAt_of_noStart (word : Word old) (noStart : startsName c = false) :
    standsAt old before (c :: rest) = false := by
  obtain ⟨first, tail, rfl, starts⟩ := word.starts
  have apart : first ≠ c := by
    rintro rfl
    rw [starts] at noStart
    cases noStart
  simp [standsAt, apart]

theorem standsAt_inside (within : before.any Text.isWordCharacter = true)
    (word : Text.isWordCharacter c = true) : standsAt old before (c :: rest) = false := by
  simp [standsAt, isBoundary, within, word]

theorem renameFrom_nil (word : Word old) : renameFrom old fresh before 0 [] = [] := by
  rw [renameFrom, standsAt_nil word]
  rfl

theorem renameFrom_copy (none_here : standsAt old before (c :: rest) = false) :
    renameFrom old fresh before 0 (c :: rest) = c :: renameFrom old fresh (some c) 0 rest := by
  rw [renameFrom, if_neg (Nat.lt_irrefl 0), none_here]
  rfl

theorem renameFrom_skip (cs : List Char) :
    renameFrom old fresh before cs.length (cs ++ rest) =
      renameFrom old fresh (lastOf before cs) 0 rest := by
  induction cs generalizing before with
  | nil => rfl
  | cons c cs ih =>
    rw [List.length_cons, List.cons_append, renameFrom, if_pos (Nat.succ_pos _)]
    exact ih

/-- No name starts in the text: a character that could be its first is inside a word. -/
def Solid (before : Option Char) : List Char → Prop
  | [] => True
  | c :: rest =>
    (startsName c = true → before.any Text.isWordCharacter = true) ∧ Solid (some c) rest

theorem solid_of_noStart (noStart : ∀ c ∈ cs, startsName c = false) : Solid before cs := by
  induction cs generalizing before with
  | nil => trivial
  | cons c cs ih =>
    obtain ⟨here, later⟩ := List.forall_mem_cons.mp noStart
    refine ⟨fun starts => ?_, ih later⟩
    rw [here] at starts
    cases starts

theorem solid_of_continuesName (within : before.any Text.isWordCharacter = true)
    (word : ∀ c ∈ cs, continuesName c = true) : Solid before cs := by
  induction cs generalizing before with
  | nil => trivial
  | cons c cs ih =>
    obtain ⟨here, later⟩ := List.forall_mem_cons.mp word
    exact ⟨fun _ => within, ih (Text.isWordCharacter_of_continuesName here) later⟩

theorem continuesName_of_startsName (starts : startsName c = true) : continuesName c = true := by
  simp only [startsName, Bool.or_eq_true] at starts
  simp only [continuesName, Char.isAlphanum, Bool.or_eq_true]
  tauto

theorem renameFrom_solid (word : Word old) (solid : Solid before cs) :
    renameFrom old fresh before 0 (cs ++ rest) =
      cs ++ renameFrom old fresh (lastOf before cs) 0 rest := by
  induction cs generalizing before with
  | nil => rfl
  | cons c cs ih =>
    have none_here : standsAt old before (c :: (cs ++ rest)) = false := by
      cases starts : startsName c with
      | false => exact standsAt_of_noStart word starts
      | true =>
        exact standsAt_inside (solid.1 starts)
          (Text.isWordCharacter_of_continuesName (continuesName_of_startsName starts))
    rw [List.cons_append, renameFrom_copy none_here, ih solid.2]
    rfl

theorem renameFrom_same (word : Word old) (free : before.any Text.isWordCharacter = false)
    (ends : rest.head?.any Text.isWordCharacter = false) :
    renameFrom old fresh before 0 (old ++ rest) =
      (if isCalled rest then old else fresh) ++
        renameFrom old fresh (lastOf before old) 0 rest := by
  have stands : standsAt old before (old ++ rest) = true :=
    (standsAt_iff word).mpr ⟨free, rest, rfl, ends⟩
  obtain ⟨c, tail, rfl, -⟩ := word.starts
  rw [List.cons_append, renameFrom, if_neg (Nat.lt_irrefl 0), ← List.cons_append, if_pos stands,
    List.drop_left, List.isEmpty_cons, if_neg Bool.false_ne_true]
  congr 1
  exact renameFrom_skip tail

theorem standsAt_other (word : Word old) (other : Word cs) (apart : cs ≠ old)
    (ends : rest.head?.any Text.isWordCharacter = false) :
    standsAt old before (cs ++ rest) = false := by
  rw [Bool.eq_false_iff, ne_eq, standsAt_eq_true word, takeWhile_word other ends]
  exact fun stands => apart stands.2

def replacesAt (old : List Char) (before : Option Char) (cs : List Char) : Bool :=
  standsAt old before cs && !isCalled (cs.drop old.length)

theorem replacesAt_eq_true (word : Word old) : replacesAt old before cs = true ↔
    ∃ rest, cs = old ++ rest ∧ before.any Text.isWordCharacter = false ∧
      rest.head?.any Text.isWordCharacter = false ∧ isCalled rest = false := by
  rw [replacesAt, Bool.and_eq_true, standsAt_iff word, Bool.not_eq_true']
  constructor
  · rintro ⟨⟨free, rest, rfl, ends⟩, uncalled⟩
    rw [List.drop_left] at uncalled
    exact ⟨rest, rfl, free, ends, uncalled⟩
  · rintro ⟨rest, rfl, free, ends, uncalled⟩
    rw [List.drop_left]
    exact ⟨⟨free, rest, rfl, ends⟩, uncalled⟩

theorem exists_of_replacesAt (word : Word old) (replaced : replacesAt old before cs = true) :
    ∃ d rest, cs = d :: rest ∧ startsName d = true ∧ old.head? = some d := by
  obtain ⟨rest, rfl, -⟩ := (replacesAt_eq_true word).mp replaced
  obtain ⟨d, tail, rfl, starts⟩ := word.starts
  exact ⟨d, tail ++ rest, rfl, starts, rfl⟩

/-- Whether the renaming replaces the name anywhere directly behind a point. -/
def replacesBehindPoint (old : List Char) : List Char → Bool
  | [] => false
  | c :: rest => c = '.' && replacesAt old (some '.') rest || replacesBehindPoint old rest

theorem replacesBehindPoint_eq_true : replacesBehindPoint old cs = true ↔
    ∃ front rest, cs = front ++ '.' :: rest ∧ replacesAt old (some '.') rest = true := by
  constructor
  · intro replaced
    induction cs with
    | nil => cases replaced
    | cons c cs ih =>
      rw [replacesBehindPoint, Bool.or_eq_true, Bool.and_eq_true, decide_eq_true_eq] at replaced
      rcases replaced with ⟨rfl, here⟩ | later
      · exact ⟨[], cs, rfl, here⟩
      · obtain ⟨front, rest, rfl, there⟩ := ih later
        exact ⟨c :: front, rest, rfl, there⟩
  · rintro ⟨front, rest, rfl, there⟩
    induction front with
    | nil => simp [replacesBehindPoint, there]
    | cons c front ih => simp [replacesBehindPoint, ih]

theorem replacesBehindPoint_append (front : List Char)
    (clear : replacesBehindPoint old (front ++ cs) = false) :
    replacesBehindPoint old cs = false := by
  induction front with
  | nil => exact clear
  | cons c front ih => exact ih (Bool.or_eq_false_iff.mp clear).2

theorem renameFrom_kept (word : Word old) (kept : replacesAt old before (c :: rest) = false) :
    renameFrom old fresh before 0 (c :: rest) = c :: renameFrom old fresh (some c) 0 rest := by
  cases stands : standsAt old before (c :: rest) with
  | false => exact renameFrom_copy stands
  | true =>
    have called : isCalled ((c :: rest).drop old.length) = true := by
      simpa [replacesAt, stands] using kept
    obtain ⟨more, split, -⟩ := exists_of_takeWhile word ((standsAt_eq_true word).mp stands).2
    obtain ⟨first, tail, rfl, -⟩ := word.starts
    obtain ⟨rfl, rfl⟩ := List.cons.inj split.symm
    obtain ⟨firstContinues, tailContinues⟩ := List.forall_mem_cons.mp word.continues
    have within : (some first).any Text.isWordCharacter = true :=
      Text.isWordCharacter_of_continuesName firstContinues
    rw [renameFrom, if_neg (Nat.lt_irrefl 0), if_pos stands, called, List.isEmpty_cons,
      if_neg Bool.false_ne_true, if_pos rfl, List.append_eq,
      renameFrom_solid word (solid_of_continuesName within tailContinues)]
    exact congrArg (first :: tail ++ ·) (renameFrom_skip tail)

theorem renameFrom_other (word : Word old) (other : Word cs) (apart : cs ≠ old)
    (ends : rest.head?.any Text.isWordCharacter = false) :
    renameFrom old fresh before 0 (cs ++ rest) =
      cs ++ renameFrom old fresh (lastOf before cs) 0 rest := by
  have none_here : standsAt old before (cs ++ rest) = false :=
    standsAt_other word other apart ends
  obtain ⟨c, tail, rfl, starts⟩ := other.starts
  obtain ⟨first, later⟩ := List.forall_mem_cons.mp other.continues
  rw [List.cons_append] at none_here ⊢
  rw [renameFrom_copy none_here]
  exact congrArg (c :: ·) (renameFrom_solid word
    (solid_of_continuesName (Text.isWordCharacter_of_continuesName first) later))

end

/-! ## Numerals -/

structure Written (whole fraction exponent : List Char) : Prop where
  whole : ∀ c ∈ whole, c.isDigit = true
  fraction : fraction = [] ∨ ∃ digits, fraction = '.' :: digits ∧ ∀ c ∈ digits, c.isDigit = true
  exponent : exponent = [] ∨ ∃ mark sign digits, exponent = mark :: (sign ++ digits) ∧
    (mark = 'e' ∨ mark = 'E') ∧ (sign = [] ∨ sign = ['+'] ∨ sign = ['-']) ∧ digits ≠ [] ∧
    ∀ c ∈ digits, c.isDigit = true

/-- Digits with an optional point among or beside them, and an optional exponent. -/
def IsNumeral (cs : List Char) : Prop :=
  ∃ whole fraction exponent, cs = whole ++ fraction ++ exponent ∧
    Written whole fraction exponent ∧ ∃ c ∈ whole ++ fraction, c.isDigit = true

theorem takeWhile_digits (cs : List Char) : ∀ c ∈ cs.takeWhile Char.isDigit, c.isDigit = true :=
  List.all_eq_true.mp List.all_takeWhile

theorem isNumeral_numeralPart {c : Char} {rest : List Char} (starts : startsNumeral c rest = true) :
    IsNumeral (numeralPart (c :: rest)) := by
  refine ⟨_, _, _, rfl, ⟨takeWhile_digits _, ?_, ?_⟩, ?_⟩
  · unfold fractionPart
    split
    · exact .inr ⟨_, rfl, takeWhile_digits _⟩
    · exact .inl rfl
  · unfold exponentPart
    split
    · exact .inl rfl
    · next mark rest _ =>
      split
      · next isMark =>
        dsimp only
        split
        · exact .inl rfl
        · next some =>
          refine .inr ⟨_, _, _, rfl, by simpa using isMark, ?_, by simpa using some,
            takeWhile_digits _⟩
          cases rest with
          | nil => exact .inl rfl
          | cons sign rest =>
            by_cases plus : sign = '+'
            · simp [plus]
            · by_cases minus : sign = '-'
              · simp [minus]
              · simp [plus, minus]
      · exact .inl rfl
  · cases digit : c.isDigit with
    | true => exact ⟨c, by simp [digit], digit⟩
    | false =>
      simp only [startsNumeral, digit, Bool.false_or, Bool.and_eq_true, decide_eq_true_eq] at starts
      obtain ⟨rfl, behind⟩ := starts
      cases rest with
      | nil => cases behind
      | cons d rest =>
        have next : d.isDigit = true := by simpa using behind
        exact ⟨d, by simp [fractionPart, next, digit], next⟩

theorem written_numeralPart {c : Char} {rest : List Char} (starts : startsNumeral c rest = true) :
    ∃ whole fraction exponent, numeralPart (c :: rest) = whole ++ fraction ++ exponent ∧
      Written whole fraction exponent ∧ whole ++ fraction ≠ [] := by
  obtain ⟨whole, fraction, exponent, same, written, d, member, -⟩ := isNumeral_numeralPart starts
  exact ⟨whole, fraction, exponent, same, written, List.ne_nil_of_mem member⟩

theorem fractionPart_initial (cs : List Char) : fractionPart cs <+: cs := by
  unfold fractionPart
  split
  · exact (List.prefix_cons_inj _).mpr (List.takeWhile_prefix _)
  · exact List.nil_prefix

theorem append_initial {ls rs cs : List Char} (left : ls <+: cs)
    (right : rs <+: cs.drop ls.length) :
    ls ++ rs <+: cs := by
  obtain ⟨tail, rfl⟩ := left
  rw [List.drop_left] at right
  exact (List.prefix_append_right_inj ls).mpr right

theorem exponentPart_prefix (cs : List Char) : exponentPart cs <+: cs := by
  unfold exponentPart
  split
  · exact List.nil_prefix
  · next mark rest =>
    split
    · dsimp only
      split
      · exact List.nil_prefix
      · refine (List.prefix_cons_inj _).mpr (append_initial ?_ (List.takeWhile_prefix _))
        cases rest with
        | nil => exact List.nil_prefix
        | cons sign rest =>
          rw [List.take_succ_cons, List.take_zero, List.filter_singleton]
          cases decide (sign = '+') || decide (sign = '-') with
          | true => exact (List.prefix_cons_inj _).mpr List.nil_prefix
          | false => exact List.nil_prefix
    · exact List.nil_prefix

theorem numeralPart_prefix (cs : List Char) : numeralPart cs <+: cs := by
  refine append_initial (append_initial (List.takeWhile_prefix _) (fractionPart_initial _)) ?_
  rw [List.length_append]
  exact exponentPart_prefix _

theorem isDigit_apart {c : Char} (digit : c.isDigit = true) :
    startsName c = false ∧ c ≠ '.' ∧ c ≠ '+' ∧ c ≠ '-' ∧ continuesName c = true := by
  have bounds := isDigit_bounds digit
  refine ⟨?_, ?_, ?_, ?_, ?_⟩
  · by_contra starts
    have := startsName_bounds (Bool.not_eq_false _ ▸ starts)
    omega
  · rintro rfl
    exact absurd bounds (by decide)
  · rintro rfl
    exact absurd bounds (by decide)
  · rintro rfl
    exact absurd bounds (by decide)
  · simp [continuesName, Char.isAlphanum, digit]

theorem exponentPart_cons {mark : Char} {sign digits : List Char} (rest : List Char)
    (isMark : mark = 'e' ∨ mark = 'E') (isSign : sign = [] ∨ sign = ['+'] ∨ sign = ['-'])
    (some : digits ≠ []) (all : ∀ c ∈ digits, c.isDigit = true) :
    exponentPart (mark :: (sign ++ digits) ++ rest) =
      mark :: (sign ++ (digits ++ rest.takeWhile Char.isDigit)) := by
  have marked : (mark = 'e' || mark = 'E') = true := by simpa using isMark
  have front : ((sign ++ (digits ++ rest)).take 1).filter (fun c => c = '+' || c = '-') =
      sign := by
    obtain ⟨d, more, rfl⟩ := List.exists_cons_of_ne_nil some
    have digit := isDigit_apart (all d (by simp))
    rcases isSign with rfl | rfl | rfl
    · simp [digit.2.2.1, digit.2.2.2.1]
    · rfl
    · rfl
  rw [List.cons_append, List.append_assoc, exponentPart, if_pos marked]
  dsimp only
  rw [front, List.drop_left, List.takeWhile_append_of_pos all, if_neg (by simp [some])]

theorem exponentPart_again {exponent rest : List Char} (written : Written [] [] exponent)
    (stops : Stops rest) : exponentPart (exponent ++ rest) = exponent := by
  rcases written.exponent with rfl | ⟨mark, sign, digits, rfl, isMark, isSign, some, all⟩
  · exact exponentPart_stops stops
  · have none_behind : ([] ++ rest).takeWhile Char.isDigit = [] :=
      takeWhile_stops (List.forall_mem_nil _) (noDigit_of_stops stops)
    rw [exponentPart_cons rest isMark isSign some all, ← List.nil_append rest, none_behind,
      List.append_nil]

theorem Written.mark_apart {whole fraction exponent : List Char}
    (written : Written whole fraction exponent) :
    ∀ c ∈ exponent.head?, c.isDigit = false ∧ c ≠ '.' := by
  intro c member
  rcases written.exponent with rfl | ⟨mark, _, _, rfl, isMark, _, _, _⟩
  · cases member
  · cases member
    rcases isMark with rfl | rfl <;> decide

theorem Written.fraction_apart {whole fraction exponent rest : List Char}
    (written : Written whole fraction exponent) (ends : ∀ c ∈ rest.head?, c.isDigit = false) :
    ∀ c ∈ (fraction ++ rest).head?, c.isDigit = false := by
  rcases written.fraction with rfl | ⟨digits, rfl, _⟩
  · exact ends
  · intro c member
    cases member
    rfl

theorem numeralPart_base {whole fraction exponent rest : List Char}
    (written : Written whole fraction exponent)
    (ends : ∀ c ∈ rest.head?, c.isDigit = false ∧ c ≠ '.') :
    numeralPart (whole ++ fraction ++ rest) = whole ++ fraction ++ exponentPart rest := by
  have takeWhole := takeWhile_stops written.whole
    (written.fraction_apart fun c member => (ends c member).1)
  have takeFraction : fractionPart (fraction ++ rest) = fraction := by
    rcases written.fraction with rfl | ⟨digits, rfl, all⟩
    · rw [List.nil_append]
      unfold fractionPart
      split
      · exact absurd rfl (ends '.' rfl).2
      · rfl
    · rw [List.cons_append, fractionPart, takeWhile_stops all fun c member => (ends c member).1]
  unfold numeralPart
  simp only [List.append_assoc, takeWhole, List.drop_left, takeFraction]
  rw [← List.length_append, ← List.append_assoc whole fraction rest, List.drop_left]

theorem numeralPart_again {whole fraction exponent rest : List Char}
    (written : Written whole fraction exponent) (stops : Stops rest) :
    numeralPart (whole ++ fraction ++ exponent ++ rest) = whole ++ fraction ++ exponent := by
  have alone : Written [] [] exponent := ⟨by simp, .inl rfl, written.exponent⟩
  have ends : ∀ c ∈ (exponent ++ rest).head?, c.isDigit = false ∧ c ≠ '.' := by
    intro c member
    cases exponent with
    | nil => exact ⟨noDigit_of_stops stops c member, (stops c member).2⟩
    | cons mark more => exact written.mark_apart c member
  rw [List.append_assoc, numeralPart_base written ends, exponentPart_again alone stops]

/-- A point stands directly before the mark of an exponent. -/
def Pointed (cs : List Char) : Prop :=
  ['.', 'e'] <:+: cs ∨ ['.', 'E'] <:+: cs

instance (cs : List Char) : Decidable (Pointed cs) :=
  inferInstanceAs (Decidable (_ ∨ _))

theorem Written.digit_or_point {whole fraction exponent : List Char}
    (written : Written whole fraction exponent) {c : Char} (member : c ∈ whole ++ fraction) :
    c.isDigit = true ∨ c = '.' := by
  rcases List.mem_append.mp member with inWhole | inFraction
  · exact .inl (written.whole c inWhole)
  · rcases written.fraction with rfl | ⟨digits, rfl, all⟩
    · cases inFraction
    · rcases List.mem_cons.mp inFraction with point | digit
      · exact .inr point
      · exact .inl (all c digit)

theorem noStart_behind_mark {sign digits : List Char}
    (isSign : sign = [] ∨ sign = ['+'] ∨ sign = ['-']) (all : ∀ c ∈ digits, c.isDigit = true) :
    ∀ c ∈ sign ++ digits, startsName c = false := by
  intro c member
  rcases List.mem_append.mp member with inSign | inDigits
  · rcases isSign with rfl | rfl | rfl
    · cases inSign
    · rw [List.mem_singleton.mp inSign]
      rfl
    · rw [List.mem_singleton.mp inSign]
      rfl
  · exact (isDigit_apart (all c inDigits)).1

theorem mark_kept {old base more : List Char} (before : Option Char) {mark : Char}
    (some : base ≠ []) (letters : ∀ c ∈ base, c.isDigit = true ∨ c = '.')
    (isMark : mark = 'e' ∨ mark = 'E')
    (clear : replacesBehindPoint old (base ++ mark :: more) = false) :
    replacesAt old (lastOf before base) (mark :: more) = false := by
  obtain ⟨front, last, rfl⟩ := (List.eq_nil_or_concat base).resolve_left some
  rw [List.concat_eq_append] at letters clear ⊢
  rw [lastOf_append]
  rcases letters last (by simp) with digit | rfl
  · have inside : standsAt old (lastOf (lastOf before front) [last]) (mark :: more) = false := by
      refine standsAt_inside ?_ ?_
      · exact Text.isWordCharacter_of_continuesName (isDigit_apart digit).2.2.2.2
      · rcases isMark with rfl | rfl <;> decide
    rw [replacesAt, inside, Bool.false_and]
  · rw [List.append_assoc] at clear
    exact (Bool.or_eq_false_iff.mp (replacesBehindPoint_append front clear)).1

/-- A numeral is copied if nothing is replaced behind its point. -/
theorem renameFrom_written {old fresh whole fraction exponent rest : List Char}
    {before : Option Char} (word : Word old) (written : Written whole fraction exponent)
    (some : whole ++ fraction ≠ [])
    (clear : replacesBehindPoint old (whole ++ fraction ++ exponent ++ rest) = false) :
    renameFrom old fresh before 0 (whole ++ fraction ++ exponent ++ rest) =
      whole ++ fraction ++ exponent ++
        renameFrom old fresh (lastOf before (whole ++ fraction ++ exponent)) 0 rest := by
  have letters : ∀ c ∈ whole ++ fraction, c.isDigit = true ∨ c = '.' :=
    fun c => written.digit_or_point
  have exponents := written.exponent
  clear written
  generalize whole ++ fraction = base at some letters clear ⊢
  have noStart : ∀ c ∈ base, startsName c = false := by
    intro c member
    rcases letters c member with digit | rfl
    · exact (isDigit_apart digit).1
    · rfl
  rw [List.append_assoc, renameFrom_solid word (solid_of_noStart noStart), List.append_assoc,
    lastOf_append]
  congr 1
  rcases exponents with rfl | ⟨mark, sign, digits, rfl, isMark, isSign, _, all⟩
  · rfl
  · rw [List.append_assoc, List.cons_append] at clear
    have kept := mark_kept before some letters isMark clear
    have noStart := noStart_behind_mark isSign all
    rw [List.cons_append, renameFrom_kept word kept,
      renameFrom_solid word (solid_of_noStart noStart)]
    rfl

theorem Written.behind_point {whole fraction exponent front more after rest : List Char} {d : Char}
    (written : Written whole fraction exponent)
    (split : whole ++ fraction ++ exponent = front ++ '.' :: more)
    (next : more ++ after = d :: rest) (starts : startsName d = true)
    (ends : ∀ c ∈ after.head?, startsName c = false) :
    (d = 'e' ∨ d = 'E') ∧ Pointed (whole ++ fraction ++ exponent) := by
  have noPoint {digits : List Char} (all : ∀ c ∈ digits, c.isDigit = true) : '.' ∉ digits :=
    fun member => (isDigit_apart (all '.' member)).2.1 rfl
  have inExponent : '.' ∉ exponent := by
    rcases written.exponent with rfl | ⟨mark, sign, digits, rfl, isMark, isSign, _, all⟩
    · exact List.not_mem_nil
    · have inDigits := noPoint all
      rcases isMark with rfl | rfl <;> rcases isSign with rfl | rfl | rfl <;> simpa
  rcases written.fraction with rfl | ⟨digits, rfl, all⟩
  · have member : '.' ∈ whole ++ [] ++ exponent := split ▸ by simp
    simp [noPoint written.whole, inExponent] at member
  · rw [List.append_assoc, List.cons_append] at split ⊢
    have behind : '.' ∉ digits ++ exponent := by simp [noPoint all, inExponent]
    obtain ⟨-, -, rfl⟩ := (List.append_cons_inj_of_notMem (noPoint written.whole) behind).mp split
    cases digits with
    | cons digit digits =>
      obtain ⟨rfl, -⟩ := List.cons.inj next
      rw [(isDigit_apart (all digit List.mem_cons_self)).1] at starts
      cases starts
    | nil =>
      rcases written.exponent with rfl | ⟨mark, sign, digits, rfl, isMark, -⟩
      · obtain rfl : after = d :: rest := next
        rw [ends d rfl] at starts
        cases starts
      · obtain ⟨rfl, -⟩ := List.cons.inj next
        refine ⟨isMark, ?_⟩
        rcases isMark with rfl | rfl
        · exact .inl ⟨whole, sign ++ digits, by simp⟩
        · exact .inr ⟨whole, sign ++ digits, by simp⟩

end Formula

end Parametric
