import Parametric.Proofs.Formula.Words
import Parametric.Proofs.Number.Saved
/-! What may stand at the front of a text, apart from how it is scanned.

A lexeme is the text of a symbol, a name or a numeral. Lexemes of one kind at
most start at one place, and the scanner takes the longest of them.
-/

set_option autoImplicit false

namespace Parametric

/-! ## Numerals -/

namespace Formula

open Token

theorem exponent?_digits {sign digits : List Char}
    (isSign : sign = [] ∨ sign = ['+'] ∨ sign = ['-']) (filled : digits ≠ [])
    (all : ∀ c ∈ digits, c.isDigit = true) :
    ∃ value, Numeral.exponent? (sign ++ digits) = some value := by
  have clean : digits.any (!·.isDigit) = false := by simpa using all
  obtain ⟨d, more, rfl⟩ := List.exists_cons_of_ne_nil filled
  have digit := isDigit_apart (all d (by simp))
  rcases isSign with rfl | rfl | rfl
  · refine ⟨digitsValue (d :: more), ?_⟩
    rw [List.nil_append, Numeral.exponent?]
    · simp [clean]
    · intro rest front
      exact digit.2.2.2.1 (List.cons.inj front).1
    · intro rest front
      exact digit.2.2.1 (List.cons.inj front).1
  · exact ⟨_, by simp only [Numeral.exponent?, List.singleton_append, clean]; rfl⟩
  · exact ⟨_, by simp only [Numeral.exponent?, List.singleton_append, clean]; rfl⟩

theorem ofChars?_isNumeral {cs : List Char} (numeral : IsNumeral cs) :
    ∃ n, Numeral.ofChars? cs = some n := by
  obtain ⟨whole, fraction, exponent, rfl, written, d, member, digit⟩ := numeral
  have stops : ∀ c ∈ exponent.head?, c.isDigit = false :=
    fun c member => (written.mark_apart c member).1
  have ends := written.fraction_apart stops
  have takeWhole := takeWhile_stops written.whole ends
  have dropWhole := dropWhile_stops written.whole ends
  unfold Numeral.ofChars?
  rw [List.append_assoc, takeWhole, dropWhole]
  rcases written.fraction with rfl | ⟨places, rfl, allPlaces⟩
  · have filled : whole ≠ [] := by
      rintro rfl
      cases member
    rcases written.exponent with rfl | ⟨mark, sign, digits, rfl, isMark, isSign, some, all⟩
    · simp [filled]
    · obtain ⟨value, read⟩ := exponent?_digits isSign some all
      rcases isMark with rfl | rfl <;> simp [filled, read]
  · have filled : (whole.isEmpty && places.isEmpty) = false := by
      by_contra empty
      obtain ⟨rfl, rfl⟩ : whole = [] ∧ places = [] := by simpa using empty
      rw [List.mem_singleton.mp member] at digit
      cases digit
    simp only [List.cons_append, takeWhile_stops allPlaces stops, dropWhile_stops allPlaces stops,
      filled, Bool.false_eq_true, if_false]
    rcases written.exponent with rfl | ⟨mark, sign, digits, rfl, isMark, isSign, some, all⟩
    · exact ⟨_, rfl⟩
    · obtain ⟨value, read⟩ := exponent?_digits isSign some all
      rcases isMark with rfl | rfl <;> simp [read]

theorem lead_of_startsNumeral {c : Char} {rest : List Char} (starts : startsNumeral c rest = true) :
    c.isDigit = true ∨ c = '.' := by
  simp only [startsNumeral, Bool.or_eq_true, Bool.and_eq_true, decide_eq_true_eq] at starts
  exact starts.imp_right And.left

theorem IsNumeral.ne_nil {cs : List Char} (numeral : IsNumeral cs) : cs ≠ [] := by
  obtain ⟨whole, fraction, exponent, rfl, -, d, member, -⟩ := numeral
  exact List.ne_nil_of_mem (List.mem_append_left _ member)

theorem IsNumeral.starts {cs rest : List Char} {c : Char} (numeral : IsNumeral cs)
    (front : cs <+: c :: rest) : startsNumeral c rest = true := by
  obtain ⟨whole, fraction, exponent, rfl, written, d, member, digit⟩ := numeral
  obtain ⟨tail, front⟩ := front
  cases whole with
  | cons first whole =>
    obtain ⟨rfl, -⟩ := List.cons.inj front
    simp [startsNumeral, written.whole first (by simp)]
  | nil =>
    rcases written.fraction with rfl | ⟨places, rfl, all⟩
    · cases member
    · cases places with
      | nil =>
        rw [List.mem_singleton.mp member] at digit
        cases digit
      | cons first places =>
        obtain ⟨rfl, rfl⟩ := List.cons.inj front
        simp [startsNumeral, all first (by simp)]

theorem IsNumeral.readNumber {cs : List Char} (numeral : IsNumeral cs) :
    ∃ n, Numeral.ofChars? cs = some n ∧ readNumber (String.ofList cs) = some n.value := by
  obtain ⟨n, read⟩ := ofChars?_isNumeral numeral
  obtain ⟨c, rest, rfl⟩ := List.exists_cons_of_ne_nil numeral.ne_nil
  refine ⟨n, read, ?_⟩
  rw [readNumber_cons rest (lead_of_startsNumeral (numeral.starts (List.prefix_refl _))), read]
  rfl

theorem IsNumeral.within {ls cs : List Char} (numeral : IsNumeral ls) (front : ls <+: cs) :
    ls <+: numeralPart cs := by
  obtain ⟨whole, fraction, exponent, rfl, written, -⟩ := numeral
  obtain ⟨tail, rfl⟩ := front
  rcases written.exponent with rfl | ⟨mark, sign, digits, rfl, isMark, isSign, filled, all⟩
  · -- Digits behind the last part belong to it.
    rw [List.append_nil]
    rcases written.fraction with rfl | ⟨places, rfl, all⟩
    · have longer : (whole ++ tail).takeWhile Char.isDigit = whole ++ tail.takeWhile Char.isDigit :=
        List.takeWhile_append_of_pos written.whole
      rw [List.append_nil, numeralPart, longer]
      simp only [List.append_assoc]
      exact List.prefix_append _ _
    · have takeWhole : (whole ++ ('.' :: places ++ tail)).takeWhile Char.isDigit = whole := by
        refine takeWhile_stops written.whole fun c member => ?_
        cases member
        rfl
      have inFraction : '.' :: places <+: fractionPart ('.' :: places ++ tail) := by
        rw [List.cons_append, fractionPart, List.takeWhile_append_of_pos all]
        exact (List.prefix_cons_inj '.').mpr (List.prefix_append _ _)
      rw [List.append_assoc, numeralPart]
      simp only [takeWhole, List.drop_left]
      rw [List.append_assoc]
      exact (List.prefix_append_right_inj whole).mpr (inFraction.trans (List.prefix_append _ _))
  · have ends : ∀ c ∈ (mark :: (sign ++ digits) ++ tail).head?, c.isDigit = false ∧ c ≠ '.' :=
      fun c member => written.mark_apart c member
    rw [List.append_assoc (whole ++ fraction), numeralPart_base written ends,
      exponentPart_cons tail isMark isSign filled all]
    exact ⟨tail.takeWhile Char.isDigit, by simp⟩

end Formula

/-! ## Lexemes -/

namespace Token

open Formula

/-- The text of one token. The value of a numeral need not be finite. -/
inductive Lexeme : List Char → TokenKind → Prop where
  | symbol (mark : Symbol) : Lexeme [mark.char] (.symbol mark)
  | name {text : String} (word : isName text = true) : Lexeme text.toList (.name text)
  | number {text : List Char} {value : Float} (numeral : IsNumeral text)
      (read : readNumber (String.ofList text) = some value) : Lexeme text (.number value)

/-- A lexeme at the front of a text, and none that starts there is longer. -/
structure Longest (cs text : List Char) (kind : TokenKind) : Prop where
  lexeme : Lexeme text kind
  front : text <+: cs
  longest : ∀ other otherKind, Lexeme other otherKind → other <+: cs → other.length ≤ text.length

variable {cs text rest : List Char} {kind : TokenKind} {c : Char}

theorem Lexeme.ne_nil (lexeme : Lexeme text kind) : text ≠ [] := by
  cases lexeme with
  | symbol mark => exact List.cons_ne_nil _ _
  | name word =>
    obtain ⟨c, rest, letters, -⟩ := (word_of_isName word).starts
    rw [letters]
    exact List.cons_ne_nil _ _
  | number numeral read => exact numeral.ne_nil

theorem ofChar?_of_startsNumeral (starts : startsNumeral c rest = true) :
    Symbol.ofChar? c = none := by
  rcases lead_of_startsNumeral starts with digit | rfl
  · exact ofChar?_of_isDigit digit
  · rfl

inductive Leads (c : Char) (rest text : List Char) : TokenKind → Prop where
  | symbol {mark : Symbol} (found : Symbol.ofChar? c = some mark) (same : text = [c]) :
      Leads c rest text (.symbol mark)
  | number {value : Float} (starts : startsNumeral c rest = true)
      (within : text <+: numeralPart (c :: rest))
      (read : readNumber (String.ofList text) = some value) : Leads c rest text (.number value)
  | name (starts : startsName c = true) (within : text <+: c :: rest.takeWhile continuesName) :
      Leads c rest text (.name (String.ofList text))

theorem Lexeme.leads (lexeme : Lexeme text kind) (front : text <+: c :: rest) :
    Leads c rest text kind := by
  cases lexeme with
  | symbol mark =>
    obtain ⟨tail, front⟩ := front
    obtain ⟨rfl, -⟩ := List.cons.inj front
    exact .symbol (Symbol.ofChar?_char mark) rfl
  | number numeral read => exact .number (numeral.starts front) (numeral.within front) read
  | @name text word =>
    obtain ⟨⟨first, tail, letters, starts⟩, continues⟩ := word_of_isName word
    rw [letters] at front continues
    obtain ⟨rfl, after, rfl⟩ := List.cons_prefix_cons.mp front
    have within : text.toList <+: first :: (tail ++ after).takeWhile continuesName := by
      rw [letters, List.takeWhile_append_of_pos (List.forall_mem_cons.mp continues).2]
      exact (List.prefix_cons_inj first).mpr (List.prefix_append _ _)
    have named := Leads.name starts within
    rwa [String.ofList_toList] at named

theorem Leads.of_symbol {mark : Symbol} (leads : Leads c rest text kind)
    (found : Symbol.ofChar? c = some mark) : text = [c] ∧ kind = .symbol mark := by
  cases leads with
  | symbol again same =>
    rw [found] at again
    cases again
    exact ⟨same, rfl⟩
  | number starts =>
    rw [ofChar?_of_startsNumeral starts] at found
    cases found
  | name starts =>
    rw [ofChar?_of_startsName starts] at found
    cases found

theorem Leads.of_number (leads : Leads c rest text kind) (starts : startsNumeral c rest = true) :
    text <+: numeralPart (c :: rest) ∧
      ∃ value, readNumber (String.ofList text) = some value ∧ kind = .number value := by
  cases leads with
  | symbol found =>
    rw [ofChar?_of_startsNumeral starts] at found
    cases found
  | number _ within read => exact ⟨within, _, read, rfl⟩
  | name word =>
    rw [startsNumeral_of_startsName word] at starts
    cases starts

theorem Leads.of_name (leads : Leads c rest text kind) (starts : startsName c = true) :
    text <+: c :: rest.takeWhile continuesName ∧ kind = .name (String.ofList text) := by
  cases leads with
  | symbol found =>
    rw [ofChar?_of_startsName starts] at found
    cases found
  | number numeral =>
    rw [startsNumeral_of_startsName starts] at numeral
    cases numeral
  | name _ within => exact ⟨within, rfl⟩

theorem Lexeme.kind_unique {other : TokenKind} (lexeme : Lexeme text kind)
    (again : Lexeme text other) : kind = other := by
  obtain ⟨c, rest, rfl⟩ := List.exists_cons_of_ne_nil lexeme.ne_nil
  have leads := again.leads (List.prefix_refl _)
  cases lexeme.leads (List.prefix_refl _) with
  | symbol found => exact (leads.of_symbol found).2.symm
  | number starts _ read =>
    obtain ⟨-, value, same, rfl⟩ := leads.of_number starts
    rw [read] at same
    cases same
    rfl
  | name starts => exact (leads.of_name starts).2.symm

theorem Longest.unique {other : List Char} {otherKind : TokenKind} (found : Longest cs text kind)
    (again : Longest cs other otherKind) : text = other ∧ kind = otherKind := by
  have inOther : text <+: other :=
    List.prefix_of_prefix_length_le found.front again.front
      (again.longest _ _ found.lexeme found.front)
  obtain rfl := inOther.eq_of_length_le (found.longest _ _ again.lexeme again.front)
  exact ⟨rfl, found.lexeme.kind_unique again.lexeme⟩

/-- The longest lexeme is the same where the text behind it is cut off. -/
theorem Longest.truncate {cut : List Char} (found : Longest cs text kind) (front : text <+: cut)
    (initial : cut <+: cs) : Longest cut text kind :=
  ⟨found.lexeme, front, fun other otherKind lexeme there =>
    found.longest other otherKind lexeme (there.trans initial)⟩

/-! ## The front of a text -/

/-- What stands where no white space does: a token, a numeral without finite value, or nothing
that a token starts with. -/
inductive Front (cs : List Char) : Except SyntaxFault (TokenKind × List Char) → Prop where
  | token {text : List Char} {kind : TokenKind} (longest : Longest cs text kind)
      (finite : ∀ value, kind = .number value → value.isFinite = true) : Front cs (.ok (kind, text))
  | outOfRange {text : String} {value : Float} (longest : Longest cs text.toList (.number value))
      (infinite : value.isFinite = false) : Front cs (.error (.numberOutOfRange text))
  | nothing {c : Char} {rest : List Char} (same : cs = c :: rest)
      (visible : Text.isBlank c = false) (none : ∀ text kind, Lexeme text kind → ¬ text <+: cs) :
      Front cs (.error (.unexpectedCharacter c))

theorem Front.ne_nil {found : Except SyntaxFault (TokenKind × List Char)} (front : Front cs found) :
    cs ≠ [] := by
  cases front with
  | token longest => exact longest.front.ne_nil longest.lexeme.ne_nil
  | outOfRange longest => exact longest.front.ne_nil longest.lexeme.ne_nil
  | nothing same => exact same ▸ List.cons_ne_nil _ _

theorem longest_symbol {mark : Symbol} (found : Symbol.ofChar? c = some mark) :
    Longest (c :: rest) [c] (.symbol mark) := by
  obtain rfl := char_of_ofChar? found
  refine ⟨.symbol mark, ⟨rest, rfl⟩, fun other _ lexeme front => ?_⟩
  rw [((lexeme.leads front).of_symbol found).1]

theorem longest_number {n : Numeral} (starts : startsNumeral c rest = true)
    (read : Numeral.ofChars? (numeralPart (c :: rest)) = some n) :
    Longest (c :: rest) (numeralPart (c :: rest)) (.number n.value) := by
  have numeral := isNumeral_numeralPart starts
  obtain ⟨m, parts, value⟩ := numeral.readNumber
  rw [read] at parts
  cases parts
  refine ⟨.number numeral value, numeralPart_prefix _, fun other _ lexeme front => ?_⟩
  exact ((lexeme.leads front).of_number starts).1.length_le

theorem longest_name (starts : startsName c = true) :
    Longest (c :: rest) (c :: rest.takeWhile continuesName)
      (.name (String.ofList (c :: rest.takeWhile continuesName))) := by
  have word : isName (String.ofList (c :: rest.takeWhile continuesName)) = true := by
    have continues : (rest.takeWhile continuesName).all continuesName = true := List.all_takeWhile
    simp [isName, starts, continues]
  have lexeme := Lexeme.name word
  rw [String.toList_ofList] at lexeme
  refine ⟨lexeme, (List.prefix_cons_inj c).mpr (List.takeWhile_prefix _), ?_⟩
  exact fun other _ lexeme front => ((lexeme.leads front).of_name starts).1.length_le

theorem first_front (visible : Text.isBlank c = false) : Front (c :: rest) (first c rest) := by
  unfold first
  cases symbol : Symbol.ofChar? c with
  | some mark => exact .token (longest_symbol symbol) nofun
  | none =>
    dsimp only
    split
    · next starts =>
      obtain ⟨n, read⟩ := ofChars?_isNumeral (isNumeral_numeralPart starts)
      have longest := longest_number starts read
      rw [read]
      dsimp only
      split
      · next finite =>
        refine .token longest fun value same => ?_
        cases same
        exact finite
      · next infinite =>
        refine .outOfRange ?_ (Bool.eq_false_iff.mpr infinite)
        rwa [String.toList_ofList]
    · next noNumeral =>
      split
      · next starts => exact .token (longest_name starts) nofun
      · next noName =>
        refine .nothing rfl visible fun text kind lexeme front => ?_
        cases lexeme.leads front with
        | symbol found =>
          rw [symbol] at found
          cases found
        | number starts => exact noNumeral starts
        | name starts => exact noName starts

theorem front_of_first {found : Except SyntaxFault (TokenKind × List Char)}
    (visible : ¬ Text.isBlank c = true) (scanned : first c rest = found) :
    Front (c :: rest) found :=
  scanned ▸ first_front (Bool.eq_false_iff.mpr visible)

theorem continuesName_bounds (continues : continuesName c = true) :
    48 ≤ c.toNat ∧ c.toNat ≤ 122 := by
  simp only [continuesName, Char.isAlphanum, Bool.or_eq_true, decide_eq_true_eq] at continues
  rcases continues with (alpha | digit) | rfl
  · have bounds := startsName_bounds (c := c) (by simp [startsName, alpha])
    omega
  · have bounds := isDigit_bounds digit
    omega
  · decide

theorem Lexeme.printable (lexeme : Lexeme text kind) :
    ∀ c ∈ text, 33 ≤ c.toNat ∧ c.toNat ≤ 126 := by
  cases lexeme with
  | symbol mark =>
    intro c member
    rw [List.mem_singleton.mp member]
    cases mark <;> decide
  | name word =>
    intro c member
    have bounds := continuesName_bounds ((word_of_isName word).continues c member)
    omega
  | number numeral read =>
    obtain ⟨whole, fraction, exponent, rfl, written, -⟩ := numeral
    have ofDigit {c : Char} (digit : c.isDigit = true) : 33 ≤ c.toNat ∧ c.toNat ≤ 126 := by
      have bounds := isDigit_bounds digit
      omega
    intro c member
    rcases List.mem_append.mp member with base | behind
    · rcases written.digit_or_point base with digit | rfl
      · exact ofDigit digit
      · decide
    · rcases written.exponent with rfl | ⟨mark, sign, digits, rfl, isMark, isSign, -, all⟩
      · cases behind
      · rcases List.mem_cons.mp behind with rfl | behind
        · rcases isMark with rfl | rfl <;> decide
        · rcases List.mem_append.mp behind with inSign | inDigits
          · rcases isSign with rfl | rfl | rfl
            · cases inSign
            · rw [List.mem_singleton.mp inSign]
              decide
            · rw [List.mem_singleton.mp inSign]
              decide
          · exact ofDigit (all c inDigits)

theorem first_of_longest (longest : Longest (c :: rest) text kind)
    (finite : ∀ value, kind = .number value → value.isFinite = true) :
    Text.isBlank c = false ∧ first c rest = .ok (kind, text) := by
  obtain ⟨d, tail, rfl⟩ := List.exists_cons_of_ne_nil longest.lexeme.ne_nil
  obtain ⟨rfl, -⟩ := List.cons_prefix_cons.mp longest.front
  obtain ⟨low, high⟩ := longest.lexeme.printable d List.mem_cons_self
  have visible := isBlank_of_ascii low high
  refine ⟨visible, ?_⟩
  have front : Front (d :: rest) (first d rest) := first_front visible
  generalize first d rest = found at front ⊢
  cases front with
  | token again _ =>
    obtain ⟨rfl, rfl⟩ := longest.unique again
    rfl
  | outOfRange again infinite =>
    rw [finite _ (longest.unique again).2] at infinite
    cases infinite
  | nothing _ _ none => exact absurd longest.front (none _ _ longest.lexeme)

end Token

end Parametric
