import Parametric.Formula.Token
import Parametric.Proofs.Number.Text
import Parametric.Proofs.Outcome
import Parametric.Proofs.Text.Runs
/-! How the scanner splits a text that is put together from tokens.

A name or numeral ends where nothing follows that could be a part of it. The
offset where a text starts has no influence on the kinds of its tokens.
-/

set_option autoImplicit false

namespace Parametric.Token

def Scans (cs : List Char) (kinds : List TokenKind) : Prop :=
  ∀ offset, ∃ tokens, allFrom offset cs = .ok tokens ∧ tokens.map (·.kind) = kinds

/-- No name or numeral goes on with this text. -/
def Stops (cs : List Char) : Prop :=
  ∀ c ∈ cs.head?, continuesName c = false ∧ c ≠ '.'

theorem stops_nil : Stops [] := by
  intro c member
  cases member

theorem stops_cons {c : Char} (cs : List Char) (ends : continuesName c = false)
    (noPoint : c ≠ '.') : Stops (c :: cs) := by
  intro d member
  cases member
  exact ⟨ends, noPoint⟩

theorem stops_symbol (s : Symbol) (cs : List Char) : Stops (s.char :: cs) := by
  cases s <;> exact stops_cons cs rfl (by decide)

theorem stops_blank (cs : List Char) : Stops (' ' :: cs) :=
  stops_cons cs rfl (by decide)

theorem scans_nil : Scans [] [] := by
  intro offset
  exact ⟨[], by rw [allFrom], rfl⟩

variable {rest : List Char} {kinds : List TokenKind}

theorem scans_isBlank {c : Char} (blank : Text.isBlank c = true) (scans : Scans rest kinds) :
    Scans (c :: rest) kinds := by
  intro offset
  rw [allFrom, if_pos blank]
  exact scans _

theorem scans_blank (scans : Scans rest kinds) : Scans (' ' :: rest) kinds :=
  scans_isBlank rfl scans

theorem scans_first {c : Char} (tail : List Char) {kind : TokenKind}
    (visible : Text.isBlank c = false)
    (first : first c (tail ++ rest) = .ok (kind, c :: tail)) (scans : Scans rest kinds) :
    Scans (c :: tail ++ rest) (kind :: kinds) := by
  intro offset
  obtain ⟨tokens, scanned, same⟩ := scans (offset + (c :: tail).length)
  rw [List.cons_append, allFrom, if_neg (by simp [visible]), first]
  have left : (tail ++ rest).drop ((c :: tail).length - 1) = rest := by simp
  simp only [left, scanned, Except.map]
  exact ⟨_, rfl, by simp [same]⟩

theorem char_of_ofChar? {c : Char} {mark : Symbol} (found : Symbol.ofChar? c = some mark) :
    c = mark.char := by
  unfold Symbol.ofChar? at found
  split at found <;> cases found <;> rfl

theorem scans_symbol (s : Symbol) (scans : Scans rest kinds) :
    Scans (s.char :: rest) (.symbol s :: kinds) := by
  have visible : Text.isBlank s.char = false := by cases s <;> rfl
  refine scans_first [] visible ?_ scans
  rw [Token.first, Symbol.ofChar?_char]

/-! ## Names -/

theorem isBlank_of_ascii {c : Char} (visible : 33 ≤ c.toNat) (ascii : c.toNat ≤ 126) :
    Text.isBlank c = false := by
  unfold Text.isBlank Text.inRanges Text.blankRanges
  simp only [List.any_cons, List.any_nil, Bool.or_false, Bool.or_eq_false_iff,
    Bool.and_eq_false_iff, decide_eq_false_iff_not]
  omega

theorem startsName_bounds {c : Char} (starts : startsName c = true) :
    65 ≤ c.toNat ∧ c.toNat ≤ 122 := by
  simp only [startsName, Char.isAlpha, Char.isUpper, Char.isLower, Bool.or_eq_true,
    Bool.and_eq_true, decide_eq_true_eq] at starts
  rcases starts with (⟨low, high⟩ | ⟨low, high⟩) | rfl
  · exact ⟨low, le_trans (UInt32.le_iff_toNat_le.mp high) (by decide)⟩
  · exact ⟨le_trans (by decide) (UInt32.le_iff_toNat_le.mp low), high⟩
  · decide

theorem isDigit_bounds {c : Char} (digit : c.isDigit = true) : 48 ≤ c.toNat ∧ c.toNat ≤ 57 :=
  Char.isDigit_iff_toNat.mp digit

theorem ofChar?_of_startsName {c : Char} (starts : startsName c = true) :
    Symbol.ofChar? c = none := by
  unfold Symbol.ofChar?
  split <;> first | rfl | exact absurd starts (by decide)

theorem startsNumeral_of_startsName {c : Char} (starts : startsName c = true) (rest : List Char) :
    startsNumeral c rest = false := by
  obtain ⟨low, high⟩ := startsName_bounds starts
  have noDigit : c.isDigit = false := by
    by_contra digit
    have := isDigit_bounds (Bool.not_eq_false _ ▸ digit)
    omega
  have noPoint : c ≠ '.' := by
    rintro rfl
    exact absurd low (by decide)
  simp [startsNumeral, noDigit, noPoint]

theorem scans_name {text : String} (word : isName text = true) (stops : Stops rest)
    (scans : Scans rest kinds) : Scans (text.toList ++ rest) (.name text :: kinds) := by
  unfold isName at word
  split at word
  · cases word
  · next c tail letters =>
    obtain ⟨starts, continues⟩ := Bool.and_eq_true_iff.mp word
    have bounds := startsName_bounds starts
    rw [letters]
    refine scans_first tail (isBlank_of_ascii (by omega) (by omega)) ?_ scans
    have same : String.ofList (c :: tail) = text := by rw [← letters, String.ofList_toList]
    have longest : (tail ++ rest).takeWhile continuesName = tail :=
      takeWhile_stops (List.all_eq_true.mp continues) fun d member => (stops d member).1
    rw [first, ofChar?_of_startsName starts]
    simp only [startsNumeral_of_startsName starts, starts, longest, same, Bool.false_eq_true,
      if_false, if_true]

/-! ## Numerals -/

theorem ofChar?_of_isDigit {c : Char} (digit : c.isDigit = true) : Symbol.ofChar? c = none := by
  unfold Symbol.ofChar?
  split <;> first | rfl | exact absurd digit (by decide)

theorem noDigit_of_stops (stops : Stops rest) : ∀ c ∈ rest.head?, c.isDigit = false := by
  intro c member
  have ends := (stops c member).1
  simp only [continuesName, Char.isAlphanum, Bool.or_eq_false_iff] at ends
  exact ends.1.2

theorem exponentPart_stops (stops : Stops rest) : exponentPart rest = [] := by
  cases rest with
  | nil => rfl
  | cons mark tail =>
    have ends := (stops mark rfl).1
    have noMark : ¬ (mark = 'e' || mark = 'E') = true := by
      intro exponent
      rcases Bool.or_eq_true_iff.mp exponent with lower | upper
      · rw [of_decide_eq_true lower] at ends
        exact absurd ends (by decide)
      · rw [of_decide_eq_true upper] at ends
        exact absurd ends (by decide)
    rw [exponentPart, if_neg noMark]

theorem fractionPart_plain {digits : List Char} (all : ∀ c ∈ digits, c.isDigit = true)
    (stops : Stops rest) :
    fractionPart ((if digits.isEmpty then [] else '.' :: digits) ++ rest) =
      if digits.isEmpty then [] else '.' :: digits := by
  cases digits with
  | nil =>
    unfold fractionPart
    split
    · next tail front => exact absurd rfl (stops '.' (by simpa using congrArg List.head? front)).2
    · rfl
  | cons first more =>
    have longest := takeWhile_stops all (noDigit_of_stops stops)
    simp only [List.isEmpty_cons, Bool.false_eq_true, if_false, List.cons_append, fractionPart]
    rw [← List.cons_append, longest]

theorem numeralPart_plainChars {n : Numeral} (plain : n.Plain) (stops : Stops rest) :
    numeralPart (n.plainChars ++ rest) = n.plainChars := by
  have fraction := fractionPart_plain plain.fraction stops
  unfold numeralPart Numeral.plainChars
  generalize tail : (if n.fraction.isEmpty then [] else '.' :: n.fraction) = part at fraction ⊢
  -- The digits end at the point or, without fraction, where the numeral stops.
  have ends : ∀ c ∈ (part ++ rest).head?, c.isDigit = false := by
    rw [← tail]
    split
    · exact noDigit_of_stops stops
    · intro c member
      cases member
      rfl
  have whole := takeWhile_stops plain.whole ends
  simp only [List.append_assoc, whole, List.drop_left, fraction]
  rw [← List.append_assoc n.whole part rest, ← List.length_append, List.drop_left,
    exponentPart_stops stops, List.append_nil]

theorem scans_numeral {n : Numeral} (plain : n.Plain) (finite : n.value.isFinite = true)
    (stops : Stops rest) (scans : Scans rest kinds) :
    Scans (n.plainChars ++ rest) (.number n.value :: kinds) := by
  have longest := numeralPart_plainChars plain stops
  have read := Numeral.ofChars?_plainChars plain
  have text : n.plainChars ≠ [] := by simp [Numeral.plainChars, plain.some]
  obtain ⟨c, tail, front⟩ := List.exists_cons_of_ne_nil text
  have digit : c.isDigit = true := by
    obtain ⟨d, whole, same⟩ := List.exists_cons_of_ne_nil plain.some
    have lead : d = c := by
      rw [Numeral.plainChars, same] at front
      exact (List.cons_eq_cons.mp front).1
    exact lead ▸ plain.whole d (by simp [same])
  have bounds := isDigit_bounds digit
  rw [front] at longest read ⊢
  refine scans_first tail (isBlank_of_ascii (by omega) (by omega)) ?_ scans
  rw [List.cons_append] at longest
  rw [first, ofChar?_of_isDigit digit]
  simp only [startsNumeral, digit, Bool.true_or, if_true, longest, read, finite]

/-! ## Tokens of any text -/

def Lexical : TokenKind → Prop
  | .number value => value.isFinite = true ∧ NumberForm.isNegative value = false
  | .name text => isName text = true
  | .symbol _ => True

theorem first_lexical {c : Char} {kind : TokenKind} {text : List Char}
    (found : first c rest = .ok (kind, text)) : Lexical kind := by
  unfold first at found
  split at found
  · cases found
    trivial
  · split at found
    · dsimp only at found
      split at found
      · cases found
      · next numeral read =>
        split at found
        · next finite =>
          cases found
          exact ⟨finite, Decimal.toFloat_unsigned _⟩
        · cases found
    · split at found
      · next starts =>
        cases found
        have continues : (rest.takeWhile continuesName).all continuesName = true :=
          List.all_takeWhile
        simp [Lexical, isName, starts, continues]
      · cases found

theorem allFrom_lexical {cs : List Char} {offset : Nat} {tokens : List Token}
    (scanned : allFrom offset cs = .ok tokens) : ∀ t ∈ tokens, Lexical t.kind := by
  induction offset, cs using allFrom.induct generalizing tokens with
  | case1 offset =>
    rw [allFrom] at scanned
    cases scanned
    simp
  | case2 offset c rest blank ih =>
    rw [allFrom, if_pos blank] at scanned
    exact ih scanned
  | case3 offset c rest visible fault found =>
    rw [allFrom, if_neg visible, found] at scanned
    cases scanned
  | case4 offset c rest visible kind text found ih =>
    rw [allFrom, if_neg visible, found] at scanned
    dsimp only at scanned
    cases later : allFrom (offset + text.length) (rest.drop (text.length - 1)) with
    | error e => rw [later] at scanned; cases scanned
    | ok others =>
      rw [later] at scanned
      cases scanned
      exact List.forall_mem_cons.mpr ⟨first_lexical found, ih later⟩

theorem first_ne_nil {c : Char} {kind : TokenKind} {text : List Char}
    (found : first c rest = .ok (kind, text)) : text ≠ [] := by
  unfold first at found
  split at found
  · cases found
    exact List.cons_ne_nil _ _
  · split at found
    · dsimp only at found
      split at found
      · cases found
      · next numeral read =>
        split at found
        · cases found
          intro nothing
          rw [nothing] at read
          cases read
        · cases found
    · split at found
      · cases found
        exact List.cons_ne_nil _ _
      · cases found

theorem allFrom_rising {cs : List Char} {offset : Nat} {tokens : List Token}
    (scanned : allFrom offset cs = .ok tokens) :
    tokens.Pairwise (·.offset < ·.offset) ∧ ∀ t ∈ tokens, offset ≤ t.offset := by
  induction offset, cs using allFrom.induct generalizing tokens with
  | case1 offset =>
    rw [allFrom] at scanned
    cases scanned
    exact ⟨.nil, by simp⟩
  | case2 offset c rest blank ih =>
    rw [allFrom, if_pos blank] at scanned
    obtain ⟨rising, behind⟩ := ih scanned
    exact ⟨rising, fun t member => Nat.le_trans (Nat.le_add_right ..) (behind t member)⟩
  | case3 offset c rest visible fault found =>
    rw [allFrom, if_neg visible, found] at scanned
    cases scanned
  | case4 offset c rest visible kind text found ih =>
    rw [allFrom, if_neg visible, found] at scanned
    obtain ⟨others, later, rfl⟩ := ok_of_map scanned
    obtain ⟨rising, behind⟩ := ih later
    have long := List.length_pos_of_ne_nil (first_ne_nil found)
    refine ⟨List.pairwise_cons.mpr ⟨fun t member => ?_, rising⟩, ?_⟩
    · have := behind t member
      dsimp only
      omega
    · refine List.forall_mem_cons.mpr ⟨Nat.le_refl _, fun t member => ?_⟩
      exact Nat.le_trans (Nat.le_add_right ..) (behind t member)

end Parametric.Token
