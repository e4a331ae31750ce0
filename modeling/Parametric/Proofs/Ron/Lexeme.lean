import Parametric.Proofs.Number.Saved
import Parametric.Proofs.Text.Digits
import Parametric.Ron.Lexeme
import Parametric.Ron.Value
/-! The smallest parts of a RON text are read back as they are written.

What is read ends where a comma or a closing parenthesis follows, whatever comes
behind that.
-/

set_option autoImplicit false

namespace Parametric.Ron

/-- A value that is written before this text ends there. -/
def Stops (rest : List Char) : Prop :=
  ∀ c ∈ rest.head?, c = ',' ∨ c = ')'

theorem stops_nil : Stops [] := by
  intro c member
  cases member

theorem stops_comma (rest : List Char) : Stops (',' :: rest) := by
  intro c member
  cases member
  exact .inl rfl

theorem stops_closing (rest : List Char) : Stops (')' :: rest) := by
  intro c member
  cases member
  exact .inr rfl

theorem Stops.takeWhile {p : Char → Bool} {cs rest : List Char} (stops : Stops rest)
    (all : ∀ c ∈ cs, p c = true) (comma : p ',' = false) (closing : p ')' = false) :
    (cs ++ rest).takeWhile p = cs := by
  rw [List.takeWhile_append_of_pos all]
  cases rest with
  | nil => simp
  | cons c rest =>
    have ends : p c = false := by
      rcases stops c rfl with rfl | rfl
      · exact comma
      · exact closing
    simp [ends]

theorem Stops.any_head? {p : Char → Bool} {rest : List Char} (stops : Stops rest)
    (comma : p ',' = false) (closing : p ')' = false) : rest.head?.any p = false := by
  cases rest with
  | nil => rfl
  | cons c rest =>
    rcases stops c rfl with rfl | rfl
    · exact comma
    · exact closing

/-! ## Blanks and marks -/

def Visible (cs : List Char) : Prop :=
  afterBlanks? .outside cs = some cs

theorem visible_cons {c : Char} (rest : List Char)
    (visible : c ∉ [' ', '\t', '\n', '\r', '/']) : Visible (c :: rest) := by
  simp only [List.mem_cons, List.not_mem_nil, or_false, not_or] at visible
  obtain ⟨space, tab, newline, feed, slash⟩ := visible
  unfold Visible
  rw [afterBlanks?]
  · simp [space, tab, newline, feed, slash]
  · exact fun _ same _ => slash same
  · exact fun _ same _ => slash same

theorem afterBlanks?_space (cs : List Char) :
    afterBlanks? .outside (' ' :: cs) = afterBlanks? .outside cs := by
  rw [afterBlanks?]
  · simp
  all_goals simp

theorem afterBlanks?_newline (cs : List Char) :
    afterBlanks? .outside ('\n' :: cs) = afterBlanks? .outside cs := by
  rw [afterBlanks?]
  · simp
  all_goals simp

theorem afterBlanks?_line (depth : Nat) {cs : List Char} (visible : Visible cs) :
    afterBlanks? .outside (Layout.spread.line depth ++ cs) = some cs := by
  have indentation : ∀ count,
      afterBlanks? .outside (List.replicate count ' ' ++ cs) = some cs := by
    intro count
    induction count with
    | zero => exact visible
    | succ count ih => rw [List.replicate_succ, List.cons_append, afterBlanks?_space, ih]
  rw [Layout.spread, List.cons_append, afterBlanks?_newline, indentation]

namespace Reader

variable {rest : List Char}

theorem blanks_eq {cs : List Char} (after : afterBlanks? .outside cs = some rest) :
    blanks cs = some ((), rest) := by
  rw [blanks, after]
  rfl

theorem took_append (text : String) (rest : List Char) :
    took text (text.toList ++ rest) = some (true, rest) := by
  have front : text.toList.isPrefixOf (text.toList ++ rest) = true :=
    List.isPrefixOf_iff_prefix.mpr (List.prefix_append _ _)
  rw [took, if_pos front, ← String.length_toList, List.drop_left]

theorem took_none {text : String} {cs : List Char} (other : text.toList.isPrefixOf cs = false) :
    took text cs = some (false, cs) := by
  rw [took, other]
  rfl

theorem take_cons (c : Char) (rest : List Char) : take c (c :: rest) = some ((), rest) := by
  rw [take]
  exact if_pos rfl

theorem tookComma_comma {cs : List Char} (after : afterBlanks? .outside cs = some rest) :
    tookComma (',' :: cs) = some (true, rest) := by
  have comma : blanks (',' :: cs) = some ((), ',' :: cs) := blanks_eq (visible_cons _ (by decide))
  have took : took "," (',' :: cs) = some (true, cs) := took_append "," cs
  have behind := blanks_eq after
  unfold tookComma
  simp [bind, StateT.bind, comma, took, behind, pure, StateT.pure]

theorem tookComma_closing (rest : List Char) :
    tookComma (')' :: rest) = some (false, ')' :: rest) := by
  have closing : blanks (')' :: rest) = some ((), ')' :: rest) :=
    blanks_eq (visible_cons _ (by decide))
  have took : took "," (')' :: rest) = some (false, ')' :: rest) := took_none rfl
  unfold tookComma
  simp [bind, StateT.bind, closing, took, pure, StateT.pure]

/-! ## Names -/

def isWord (text : String) : Bool :=
  text.toList.head?.any startsWord && text.toList.all continuesWord

def Marked (rest : List Char) : Prop :=
  ∀ c ∈ rest.head?, c = ':' ∨ c = '(' ∨ c = ',' ∨ c = ')'

theorem marked_cons {c : Char} (mark : c = ':' ∨ c = '(') (rest : List Char) :
    Marked (c :: rest) := by
  intro d member
  cases member
  rcases mark with rfl | rfl <;> simp

theorem marked_of_stops (stops : Stops rest) : Marked rest := by
  intro c member
  rcases stops c member with rfl | rfl <;> simp

theorem name_word {text : String} (word : isWord text = true) (marked : Marked rest) :
    name (text.toList ++ rest) = some (text, rest) := by
  obtain ⟨starts, all⟩ := Bool.and_eq_true_iff.mp word
  have raw : ∀ c ∈ text.toList, continuesRawWord c = true := by
    intro c member
    rw [continuesRawWord, List.all_eq_true.mp all c member]
    rfl
  have whole : (text.toList ++ rest).takeWhile continuesRawWord = text.toList := by
    rw [List.takeWhile_append_of_pos raw]
    cases rest with
    | nil => simp
    | cons c rest =>
      have ends : continuesRawWord c = false := by
        rcases marked c rfl with rfl | rfl | rfl | rfl <;> rfl
      simp [ends]
  -- Nothing that follows the first character makes the name a raw one.
  have plain : ∀ c tail, text.toList = c :: tail →
      ∀ d ∈ (tail ++ rest).head?, d ≠ '"' ∧ d ≠ '#' := by
    intro c tail same d member
    cases tail with
    | nil =>
      rcases marked d member with rfl | rfl | rfl | rfl <;> decide
    | cons e tail =>
      cases member
      have inside := List.all_eq_true.mp all d (by simp [same])
      constructor
      · rintro rfl
        exact absurd inside (by decide)
      · rintro rfl
        exact absurd inside (by decide)
  unfold name
  rw [whole]
  cases same : text.toList with
  | nil => rw [same] at starts; cases starts
  | cons c tail =>
    have plain := plain c tail same
    rw [same] at starts all
    have first : startsWord c = true := starts
    rw [List.cons_append]
    dsimp only
    split
    · next front =>
      rw [(List.cons.inj front).2] at plain
      exact absurd rfl (plain '"' rfl).1
    · next front =>
      rw [(List.cons.inj front).2] at plain
      exact absurd rfl (plain '#' rfl).2
    · next front =>
      obtain ⟨rfl, rfl⟩ := List.cons.inj front
      rw [first, all, ← List.cons_append, List.drop_left, ← same, String.ofList_toList]
      rfl
    · next front => cases front

/-! ## Numbers -/

theorem atWord_self (text : String) (ends : rest.head?.any continuesWord = false) :
    atWord text (text.toList ++ rest) = true := by
  rw [atWord, ← String.length_toList, List.drop_left, ends,
    List.isPrefixOf_iff_prefix.mpr (List.prefix_append _ _)]
  rfl

theorem find_word_none {sign : List Char} (isSign : sign = [] ∨ sign = ['-']) {c : Char}
    (digit : c.isDigit = true) (rest : List Char) :
    ["inf", "+inf", "-inf", "NaN", "+NaN", "-NaN"].find? (atWord · (sign ++ c :: rest)) =
      none := by
  rw [List.find?_eq_none]
  intro word listed found
  obtain ⟨tail, front⟩ := List.isPrefixOf_iff_prefix.mp (Bool.and_eq_true_iff.mp found).1
  simp only [List.mem_cons, List.not_mem_nil, or_false] at listed
  rcases isSign with rfl | rfl <;> rcases listed with rfl | rfl | rfl | rfl | rfl | rfl <;>
    cases front <;> cases digit

theorem float_numeral {n : Numeral} (plain : n.Plain) {sign : List Char}
    (isSign : sign = [] ∨ sign = ['-']) {x : Float}
    (read : readNumber (String.ofList (sign ++ n.plainChars)) = some x) (stops : Stops rest) :
    float (sign ++ n.plainChars ++ rest) = some (x, rest) := by
  have decimal : ∀ c ∈ sign ++ n.plainChars, continuesDecimal c = true ∧ c ≠ '_' := by
    intro c member
    have shape : c.isDigit = true ∨ c = '.' ∨ c = '-' := by
      rcases List.mem_append.mp member with inSign | inText
      · rcases isSign with rfl | rfl
        · cases inSign
        · exact .inr (.inr (List.mem_singleton.mp inSign))
      · rcases plain.mem_plainChars inText with digit | point
        · exact .inl digit
        · exact .inr (.inl point)
    rcases shape with digit | rfl | rfl
    · refine ⟨by simp [continuesDecimal, digit], ?_⟩
      rintro rfl
      cases digit
    · decide
    · decide
  have whole : (sign ++ n.plainChars ++ rest).takeWhile continuesDecimal = sign ++ n.plainChars :=
    stops.takeWhile (fun c member => (decimal c member).1) rfl rfl
  have noWord : ["inf", "+inf", "-inf", "NaN", "+NaN", "-NaN"].find?
      (atWord · (sign ++ n.plainChars ++ rest)) = none := by
    obtain ⟨c, tail, same, digit⟩ := plain.head
    rw [same, List.append_assoc]
    exact find_word_none isSign digit _
  have noGap : '_' ∉ sign ++ n.plainChars := fun member => (decimal '_' member).2 rfl
  unfold float
  rw [noWord]
  dsimp only
  rw [whole, if_neg noGap, read, List.drop_left]
  rfl

theorem float_saved (x : Float) (stops : Stops rest) :
    float (NumberForm.saved.chars x ++ rest) = some (x, rest) := by
  have read := readNumber_saved x
  have text := savedText x
  rw [NumberForm.write] at read
  generalize NumberForm.saved.chars x = cs at text read
  cases text with
  | word text listed value =>
    have ends : rest.head?.any continuesWord = false := stops.any_head? rfl rfl
    have self := atWord_self text ends
    have found : ["inf", "+inf", "-inf", "NaN", "+NaN", "-NaN"].find?
        (atWord · (text.toList ++ rest)) = some text := by
      simp only [List.mem_cons, List.not_mem_nil, or_false] at listed
      rcases listed with rfl | rfl | rfl <;> simp only [List.find?_cons, self]
      all_goals rfl
    unfold float
    rw [found]
    dsimp only
    rw [value, ← String.length_toList, List.drop_left]
    rfl
  | unsigned plain => exact float_numeral plain (.inl rfl) read stops
  | negative plain => exact float_numeral plain (.inr rfl) read stops

theorem natural_toDigits {width n : Nat} (fits : n < 2 ^ width) (stops : Stops rest) :
    natural width (Nat.toDigits 10 n ++ rest) = some (n, rest) := by
  have digits : ∀ c ∈ Nat.toDigits 10 n, continuesInteger c = true ∧ c ≠ '_' := by
    intro c member
    obtain ⟨d, small, rfl⟩ := Text.mem_toDigits (by decide) member
    have all : ∀ d < 10, continuesInteger (Nat.digitChar d) = true ∧ Nat.digitChar d ≠ '_' := by
      decide
    exact all d small
  have whole : (Nat.toDigits 10 n ++ rest).takeWhile continuesInteger = Nat.toDigits 10 n :=
    stops.takeWhile (fun c member => (digits c member).1) rfl rfl
  have value : ((Nat.toDigits 10 n).filter (· ≠ '_')).foldlM (fun value c =>
      ((Text.hexValue? c).filter (· < 10)).map (10 * value + ·)) 0 = some n := by
    have kept : (Nat.toDigits 10 n).filter (· ≠ '_') = Nat.toDigits 10 n := by
      apply List.filter_eq_self.mpr
      intro c member
      simpa using (digits c member).2
    rw [kept]
    apply Text.foldlM_toDigits (by decide)
    intro value d small
    rw [Text.hexValue?_digitChar (by omega)]
    simp [Option.filter, small]
  obtain ⟨c, more, same⟩ := List.exists_cons_of_ne_nil (Nat.toDigits_ne_nil (b := 10) (n := n))
  have noGap : c ≠ '_' := (digits c (by simp [same])).2
  -- Behind a leading zero stands no mark of another base.
  have second : ∀ d ∈ (more ++ rest).head?, d ≠ 'x' ∧ d ≠ 'b' ∧ d ≠ 'o' := by
    intro d member
    cases more with
    | nil => rcases stops d member with rfl | rfl <;> decide
    | cons e more =>
      cases member
      obtain ⟨value, small, rfl⟩ := Text.mem_toDigits (by decide)
        (show d ∈ Nat.toDigits 10 n by simp [same])
      have all : ∀ d < 10, Nat.digitChar d ≠ 'x' ∧ Nat.digitChar d ≠ 'b' ∧
          Nat.digitChar d ≠ 'o' := by decide
      exact all value small
  unfold natural naturalBelow
  rw [same] at whole value ⊢
  rw [List.cons_append] at whole ⊢
  split
  next radix text found =>
  split at found
  · next front =>
    rw [(List.cons.inj front).2] at second
    exact absurd rfl (second 'x' rfl).1
  · next front =>
    rw [(List.cons.inj front).2] at second
    exact absurd rfl (second 'b' rfl).2.1
  · next front =>
    rw [(List.cons.inj front).2] at second
    exact absurd rfl (second 'o' rfl).2.2
  · cases found
    have below : n < Nat.pow 2 width := fits
    rw [whole]
    dsimp only
    rw [if_neg (by simp [noGap]), value, ← List.cons_append, List.drop_left]
    exact if_pos below

/-! ## Quoted text -/

end Reader

/-- How a character is written inside quotation marks: as itself, by one character behind a
backslash, or by its code. -/
inductive Escaped (c : Char) : List Char → Prop where
  | plain (quote : c ≠ '"') (backslash : c ≠ '\\') : Escaped c [c]
  | short (mark : Char) (read : ∀ rest, escape? (mark :: rest) = some (c, 1)) :
      Escaped c ['\\', mark]
  | code : Escaped c ('\\' :: 'u' :: '{' :: (Nat.toDigits 16 c.toNat ++ ['}']))

theorem escaped_spec (c : Char) : Escaped c (escaped c) := by
  unfold escaped
  split
  · exact .short 't' fun _ => rfl
  · exact .short 'n' fun _ => rfl
  · exact .short 'r' fun _ => rfl
  · exact .short '\'' fun _ => rfl
  · exact .short '"' fun _ => rfl
  · exact .short '\\' fun _ => rfl
  · next noTab noLine noFeed noQuote noMark noSlash =>
    split
    · next zero =>
      have same : c = Char.ofNat 0 := by rw [← zero, Char.ofNat_toNat]
      exact .short '0' fun _ => by rw [same]; rfl
    · split
      · exact .code
      · exact .plain (fun same => noMark same) (fun same => noSlash same)

theorem escape?_code (c : Char) (rest : List Char) :
    escape? ('u' :: '{' :: (Nat.toDigits 16 c.toNat ++ '}' :: rest)) =
      some (c, (Nat.toDigits 16 c.toNat).length + 3) := by
  have small : c.toNat < 16 ^ 6 := by
    have valid := c.valid
    unfold UInt32.isValidChar Nat.isValidChar at valid
    change c.val.toNat < _
    omega
  have short : (Nat.toDigits 16 c.toNat).length ≤ 6 :=
    (Nat.length_toDigits_le_iff (by decide) (by decide)).mpr small
  have hexadecimal : ∀ d ∈ Nat.toDigits 16 c.toNat, (Text.hexValue? d).isSome = true := by
    intro d member
    obtain ⟨value, small, rfl⟩ := Text.mem_toDigits (by decide) member
    rw [Text.hexValue?_digitChar small]
    rfl
  have read : Text.hexNumber? (Nat.toDigits 16 c.toNat) = some c.toNat :=
    Text.hexNumber?_toDigits c.toNat
  have decoded : ofCodePoint? c.toNat = some c := by
    rw [ofCodePoint?, Char.ofNat_toNat]
    exact if_pos c.valid
  have nonempty : Nat.toDigits 16 c.toNat ≠ [] := Nat.toDigits_ne_nil
  generalize Nat.toDigits 16 c.toNat = digits at *
  have taken : ((digits ++ '}' :: rest).take 6).takeWhile
      (fun d => (Text.hexValue? d).isSome) = digits := by
    rw [List.take_append, List.take_of_length_le short, List.takeWhile_append_of_pos hexadecimal]
    cases 6 - digits.length with
    | zero => exact List.append_nil digits
    | succ left => exact List.append_nil digits
  rw [escape?]
  simp only [taken]
  rw [if_neg (by simp [nonempty]), read]
  simp only [bind, Option.bind, decoded]

theorem untilQuote?_plain {c : Char} (quote : c ≠ '"') (backslash : c ≠ '\\') (rest : List Char) :
    untilQuote? (c :: rest) = (untilQuote? rest).map (c :: ·) := by
  rw [untilQuote?]
  · exact quote
  · exact fun _ _ same _ => backslash same

theorem unescape?_skip (cs rest : List Char) :
    unescape? cs.length (cs ++ rest) = unescape? 0 rest := by
  induction cs with
  | nil => rfl
  | cons c cs ih =>
    rw [List.cons_append, List.length_cons, unescape?, if_pos (Nat.succ_pos _)]
    exact ih

theorem untilQuote?_append {cs : List Char} (plain : ∀ c ∈ cs, c ≠ '"' ∧ c ≠ '\\')
    (rest : List Char) : untilQuote? (cs ++ rest) = (untilQuote? rest).map (cs ++ ·) := by
  induction cs with
  | nil => simp
  | cons c cs ih =>
    have here := plain c List.mem_cons_self
    rw [List.cons_append, untilQuote?_plain here.1 here.2,
      ih fun d member => plain d (List.mem_cons_of_mem c member), Option.map_map]
    rfl

theorem untilQuote?_escaped (c : Char) (rest : List Char) :
    untilQuote? (escaped c ++ rest) = (untilQuote? rest).map (escaped c ++ ·) := by
  have spec := escaped_spec c
  generalize escaped c = cs at spec ⊢
  cases spec with
  | plain quote backslash => exact untilQuote?_plain quote backslash rest
  | short mark read => rfl
  | code =>
    have braced : ∀ d ∈ '{' :: (Nat.toDigits 16 c.toNat ++ ['}']), d ≠ '"' ∧ d ≠ '\\' := by
      intro d member
      rcases List.mem_cons.mp member with rfl | inside
      · decide
      · rcases List.mem_append.mp inside with digit | closing
        · obtain ⟨value, small, rfl⟩ := Text.mem_toDigits (by decide) digit
          have all : ∀ value < 16, Nat.digitChar value ≠ '"' ∧ Nat.digitChar value ≠ '\\' := by
            decide
          exact all value small
        · cases List.mem_singleton.mp closing
          decide
    rw [List.cons_append, List.cons_append, untilQuote?, untilQuote?_append braced, Option.map_map]
    rfl

theorem unescape?_escaped (c : Char) (rest : List Char) :
    unescape? 0 (escaped c ++ rest) = (unescape? 0 rest).map (c :: ·) := by
  have spec := escaped_spec c
  generalize escaped c = cs at spec ⊢
  cases spec with
  | plain quote backslash =>
    rw [List.singleton_append, unescape?, if_neg (Nat.lt_irrefl 0), if_neg backslash]
  | short mark read =>
    have behind : unescape? 1 (mark :: rest) = unescape? 0 rest := unescape?_skip [mark] rest
    rw [List.cons_append, List.singleton_append, unescape?, if_neg (Nat.lt_irrefl 0), if_pos rfl,
      read]
    simp only [bind, Option.bind, behind]
    cases unescape? 0 rest <;> rfl
  | code =>
    have behind := unescape?_skip ('u' :: '{' :: (Nat.toDigits 16 c.toNat ++ ['}'])) rest
    have read := escape?_code c rest
    simp only [List.cons_append, List.append_assoc, List.nil_append, List.length_cons,
      List.length_append, List.length_nil] at behind ⊢
    rw [unescape?, if_neg (Nat.lt_irrefl 0), if_pos rfl, read]
    simp only [bind, Option.bind, behind]
    cases unescape? 0 rest <;> rfl

theorem untilQuote?_quoted (cs rest : List Char) :
    untilQuote? (cs.flatMap escaped ++ '"' :: rest) = some (cs.flatMap escaped) := by
  induction cs with
  | nil => rfl
  | cons c cs ih => rw [List.flatMap_cons, List.append_assoc, untilQuote?_escaped, ih]; rfl

theorem unescape?_quoted (cs : List Char) : unescape? 0 (cs.flatMap escaped) = some cs := by
  induction cs with
  | nil => rfl
  | cons c cs ih => rw [List.flatMap_cons, unescape?_escaped, ih]; rfl

theorem Reader.string_quoted (s : String) (rest : List Char) :
    Reader.string (quoted s ++ rest) = some (s, rest) := by
  have body := untilQuote?_quoted s.toList rest
  have text := unescape?_quoted s.toList
  have split : quoted s ++ rest = '"' :: (s.toList.flatMap escaped ++ '"' :: rest) := by
    simp [quoted]
  have behind : (s.toList.flatMap escaped ++ '"' :: rest).drop
      ((s.toList.flatMap escaped).length + 1) = rest := by
    rw [← List.drop_drop, List.drop_left]
    rfl
  rw [split, Reader.string]
  simp only [body, text, behind, bind, Option.bind, String.ofList_toList]

end Parametric.Ron
