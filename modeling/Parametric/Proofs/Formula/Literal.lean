import Parametric.Proofs.Formula.Trimming
/-! Numbers and names that stand alone are formulas.

A number is read with a sign, which a formula takes for an operator. Apart from it, what is read is
a numeral, or a word for a number that is not finite.
-/

set_option autoImplicit false

namespace Parametric

namespace Formula

open Token

variable {cs : List Char} {x : Float}

/-! ## Numerals that are read -/

theorem exists_of_exponent? {value : Int} (read : Numeral.exponent? cs = some value) :
    ∃ sign digits, cs = sign ++ digits ∧ (sign = [] ∨ sign = ['+'] ∨ sign = ['-']) ∧
      digits ≠ [] ∧ ∀ c ∈ digits, c.isDigit = true := by
  have digits {negative : Bool} {digits : List Char}
      (read : (if digits.isEmpty || digits.any (!·.isDigit) then none
        else some (if negative then -(digitsValue digits : Int) else digitsValue digits)) =
          some value) : digits ≠ [] ∧ ∀ c ∈ digits, c.isDigit = true := by
    split at read
    · cases read
    · next all => simpa using all
  unfold Numeral.exponent? at read
  dsimp only at read
  split at read
  · next rest => exact ⟨['-'], rest, rfl, by simp, digits read⟩
  · next rest => exact ⟨['+'], rest, rfl, by simp, digits read⟩
  · exact ⟨[], cs, rfl, by simp, digits read⟩

theorem isNumeral_of_parts {whole fraction places rest : List Char} {n : Numeral}
    (allWhole : ∀ c ∈ whole, c.isDigit = true) (allPlaces : ∀ c ∈ places, c.isDigit = true)
    (pointed : fraction = [] ∧ places = [] ∨ fraction = '.' :: places)
    (read : (if whole.isEmpty && places.isEmpty then none
      else match rest with
        | [] => some ⟨whole, places, 0⟩
        | e :: tail =>
          if e = 'e' || e = 'E' then (Numeral.exponent? tail).map (⟨whole, places, ·⟩)
          else none) = some n) :
    IsNumeral (whole ++ fraction ++ rest) := by
  split at read
  · cases read
  next filled =>
  refine ⟨whole, fraction, rest, rfl, ⟨allWhole, ?_, ?_⟩, ?_⟩
  · rcases pointed with ⟨rfl, -⟩ | rfl
    · exact .inl rfl
    · exact .inr ⟨places, rfl, allPlaces⟩
  · cases rest with
    | nil => exact .inl rfl
    | cons mark tail =>
      dsimp only at read
      split at read
      · next isMark =>
        obtain ⟨value, found, -⟩ := Option.map_eq_some_iff.mp read
        obtain ⟨sign, digits, rfl, isSign, some, all⟩ := exists_of_exponent? found
        exact .inr ⟨mark, sign, digits, rfl, by simpa using isMark, isSign, some, all⟩
      · cases read
  · cases whole with
    | cons d whole => exact ⟨d, by simp, allWhole d (by simp)⟩
    | nil =>
      obtain ⟨d, more, rfl⟩ : ∃ d more, places = d :: more :=
        List.exists_cons_of_ne_nil (by simpa using filled)
      rcases pointed with ⟨-, none⟩ | rfl
      · cases none
      · exact ⟨d, by simp, allPlaces d (by simp)⟩

theorem isNumeral_of_ofChars? {n : Numeral} (read : Numeral.ofChars? cs = some n) :
    IsNumeral cs := by
  have whole := takeWhile_digits cs
  have split : cs.takeWhile Char.isDigit ++ cs.dropWhile Char.isDigit = cs :=
    List.takeWhile_append_dropWhile
  unfold Numeral.ofChars? at read
  dsimp only at read
  generalize cs.takeWhile Char.isDigit = ws at whole split read
  generalize cs.dropWhile Char.isDigit = after at split read
  subst split
  split at read
  · next tail =>
    have numeral := isNumeral_of_parts whole (takeWhile_digits tail) (.inr rfl) read
    rwa [List.append_assoc, List.cons_append, List.takeWhile_append_dropWhile] at numeral
  · have numeral := isNumeral_of_parts whole (List.forall_mem_nil _) (.inl ⟨rfl, rfl⟩) read
    rwa [List.append_nil] at numeral

theorem lexeme_of_readMagnitude (read : readMagnitude cs = some x) (finite : x.isFinite = true) :
    Lexeme cs (.number x) := by
  unfold readMagnitude at read
  dsimp only at read
  split at read
  · cases read
    exact absurd finite (by decide +kernel)
  split at read
  · cases read
    exact absurd finite (by decide +kernel)
  obtain ⟨n, parts, rfl⟩ := Option.map_eq_some_iff.mp read
  have numeral := isNumeral_of_ofChars? parts
  obtain ⟨m, again, value⟩ := numeral.readNumber
  rw [parts] at again
  cases again
  exact .number numeral value

/-! ## Numbers as formulas -/

inductive NumberText (x : Float) : List Char → Prop where
  | unsigned {cs : List Char} (lexeme : Lexeme cs (.number x)) (finite : x.isFinite = true) :
      NumberText x cs
  | plus {cs : List Char} (lexeme : Lexeme cs (.number x)) (finite : x.isFinite = true) :
      NumberText x ('+' :: cs)
  | minus {cs : List Char} {magnitude : Float} (lexeme : Lexeme cs (.number magnitude))
      (finite : magnitude.isFinite = true) (value : -magnitude = x) : NumberText x ('-' :: cs)

variable {text : String}

theorem numberText_of_readNumber (read : readNumber text = some x) (finite : x.isFinite = true) :
    NumberText x text.toList := by
  unfold readNumber at read
  split at read
  · next letters =>
    obtain ⟨magnitude, found, rfl⟩ := Option.map_eq_some_iff.mp read
    have unsigned := isFinite_of_neg finite
    exact letters ▸ .minus (lexeme_of_readMagnitude found unsigned) unsigned rfl
  · next letters => exact letters ▸ .plus (lexeme_of_readMagnitude read finite) finite
  · exact .unsigned (lexeme_of_readMagnitude read finite) finite

theorem trim_of_readNumber (read : readNumber text = some x) (finite : x.isFinite = true) :
    Text.trim text = text := by
  refine Text.trim_eq_self ?_
  have number := numberText_of_readNumber read finite
  generalize text.toList = cs at number
  cases number with
  | unsigned lexeme _ => exact lexeme.visible
  | plus lexeme _ => exact List.forall_mem_cons.mpr ⟨rfl, lexeme.visible⟩
  | minus lexeme _ _ => exact List.forall_mem_cons.mpr ⟨rfl, lexeme.visible⟩

theorem scans_number (lexeme : Lexeme cs (.number x)) (finite : x.isFinite = true) :
    Scans cs [.number x] := by
  have splits : Splits 0 cs _ := splits_lexeme lexeme fun value same => by
    cases same
    exact finite
  exact splits.scans

theorem parse_of_readNumber (read : readNumber text = some x) (finite : x.isFinite = true) :
    ∃ e, parse text = .ok e ∧ ∀ lookup, evalExpr lookup e = .ok x := by
  have number := numberText_of_readNumber read finite
  generalize letters : text.toList = cs at number
  cases number with
  | unsigned lexeme finite =>
    have scans := scans_number lexeme finite
    exact ⟨.number x, parse_of_scans (letters ▸ scans)
      (.term (.factor (.base (.operand (.number x))))), fun _ => rfl⟩
  | plus lexeme finite =>
    have scans := scans_symbol .plus (scans_number lexeme finite)
    exact ⟨.signed .plus (.number x), parse_of_scans (letters ▸ scans)
      (.term (.factor (.base (.signed .plus (.operand (.number x)))))), fun _ => rfl⟩
  | @minus _ magnitude lexeme finite value =>
    have scans := scans_symbol .minus (scans_number lexeme finite)
    exact ⟨.signed .minus (.number magnitude), parse_of_scans (letters ▸ scans)
      (.term (.factor (.base (.signed .minus (.operand (.number magnitude)))))),
      fun _ => congrArg Except.ok value⟩

/-- A text that is read as a finite number is a formula of that number, whatever names stand for. -/
theorem evaluate_of_readNumber (read : readNumber text = some x) (finite : x.isFinite = true)
    (lookup : String → Option Float) : evaluate text lookup = .ok x := by
  obtain ⟨e, parsed, value⟩ := parse_of_readNumber read finite
  rw [evaluate, parsed]
  dsimp only
  rw [value lookup]
  exact if_pos finite

/-! ## Names as formulas -/

theorem parse_name (valid : isName text = true) : parse text = .ok (.name text) := by
  have splits : Splits 0 text.toList _ := splits_lexeme (.name valid) nofun
  exact parse_of_scans splits.scans (.term (.factor (.base (.operand (.name text)))))

/-- A name may be read as an infinity or as no number, but never as a finite one. -/
theorem readNumber_name (valid : isName text = true) :
    (readNumber text).filter Float.isFinite = none := by
  rw [Option.filter_eq_none_iff]
  intro x read finite
  obtain ⟨e, parsed, value⟩ := parse_of_readNumber read finite
  obtain rfl := Except.ok.inj ((parse_name valid).symm.trans parsed)
  -- A number is what it is whatever the names mean.
  have zero := value fun _ => some 0.0
  have one := value fun _ => some 1.0
  rw [evalExpr] at zero one
  exact absurd (Except.ok.inj (zero.trans one.symm)) (by decide +kernel)

theorem trim_name (valid : isName text = true) : Text.trim text = text :=
  Text.trim_eq_self (Lexeme.name valid).visible

end Formula

end Parametric
