import Parametric.Proofs.Ron.Lexeme
import Parametric.Ron.Reading
/-! The spread layout of a value is read back as this value.

What is read back is closed under every way to build a value. Each way takes some
levels of nesting, so a value is read back with any larger number of levels as well.
-/

set_option autoImplicit false

namespace Parametric.Ron

open Layout (spread)

/-! ## Texts of items -/

/-- The first character of a value or of a field: nothing that ends a bracket, and nothing
that is passed over. -/
def Begins (c : Char) : Prop :=
  c ∉ [' ', '\t', '\n', '\r', '/'] ∧ c ∉ [')', ']', '#']
  deriving Decidable

theorem begins_of_isAlphanum {c : Char} (isAlphanum : c.isAlphanum = true) : Begins c := by
  constructor
  · intro member
    simp only [List.mem_cons, List.not_mem_nil, or_false] at member
    rcases member with rfl | rfl | rfl | rfl | rfl <;> cases isAlphanum
  · intro member
    simp only [List.mem_cons, List.not_mem_nil, or_false] at member
    rcases member with rfl | rfl | rfl <;> cases isAlphanum

def Begun (text : List Char) : Prop :=
  ∃ c rest, text = c :: rest ∧ Begins c

theorem Begun.append {text : List Char} (begun : Begun text) (rest : List Char) :
    Begun (text ++ rest) := by
  obtain ⟨c, more, rfl, begins⟩ := begun
  exact ⟨c, more ++ rest, rfl, begins⟩

theorem Begun.visible {text : List Char} (begun : Begun text) : Visible text := by
  obtain ⟨c, more, rfl, begins⟩ := begun
  exact visible_cons more begins.1

def laidOut (depth : Nat) (closing : Char) : List (List Char) → List Char → List Char
  | [], rest => closing :: rest
  | text :: items, rest =>
    text ++ ',' :: (spread.line (if items.isEmpty then depth else depth + 1) ++
      laidOut depth closing items rest)

theorem block_eq (depth : Nat) (opening closing : Char) (items : List (List Char))
    (rest : List Char) :
    spread.block depth opening closing items ++ rest =
      opening :: ((if items.isEmpty then [] else spread.line (depth + 1)) ++
        laidOut depth closing items rest) := by
  have joined : ∀ (text : List Char) (items : List (List Char)),
      [','].intercalate ((text :: items).map (spread.line (depth + 1) ++ ·)) ++ spread.final ++
        spread.line depth ++ [closing] ++ rest =
      spread.line (depth + 1) ++ laidOut depth closing (text :: items) rest := by
    intro text items
    induction items generalizing text with
    | nil => simp [laidOut, spread]
    | cons next items ih =>
      have tail := ih next
      simp only [List.map_cons, List.intercalate_cons_cons, List.append_assoc] at tail ⊢
      rw [tail]
      simp [laidOut]
  cases items with
  | nil => rfl
  | cons text items =>
    have tail := joined text items
    rw [Layout.block, if_neg (by simp), if_neg (by simp), ← tail]
    simp

theorem exists_block (depth : Nat) (opening closing : Char) (items : List (List Char)) :
    ∃ inside, spread.block depth opening closing items = opening :: inside := by
  rw [Layout.block]
  split <;> exact ⟨_, rfl⟩

theorem begun_block (depth : Nat) {opening : Char} (begins : Begins opening) (closing : Char)
    (items : List (List Char)) : Begun (spread.block depth opening closing items) := by
  obtain ⟨inside, opens⟩ := exists_block depth opening closing items
  exact ⟨opening, inside, opens, begins⟩

theorem visible_laidOut {items : List (List Char)} (begun : ∀ text ∈ items, Begun text)
    {closing : Char} (isClosing : closing = ')' ∨ closing = ']') (depth : Nat)
    (rest : List Char) : Visible (laidOut depth closing items rest) := by
  cases items with
  | nil =>
    rcases isClosing with rfl | rfl <;> exact visible_cons rest (by decide)
  | cons text items => exact ((begun text List.mem_cons_self).append _).visible

namespace Reader

variable {α β : Type} {cs rest : List Char}

/-! ## Steps of a reader -/

theorem bind_eq {reader : Reader α} {x : α} (read : reader cs = some (x, rest))
    (next : α → Reader β) : (reader >>= next) cs = next x rest := by
  change (reader cs).bind _ = _
  rw [read]
  rfl

theorem guard_eq {p : Prop} [Decidable p] (holds : p) (cs : List Char) :
    (guard p : Reader Unit) cs = some ((), cs) := by
  rw [guard, if_pos holds]
  rfl

theorem get_eq (cs : List Char) : (get : Reader (List Char)) cs = some (cs, cs) := rfl

theorem next?_eq (cs : List Char) : next? cs = some (cs.head?, cs) := rfl

/-! ## Brackets -/

/-- The items of a bracket are read one after the other; each is read from its text, before
a comma. -/
theorem parts_laidOut {part : Reader α} {text : β → List Char} {result : β → α} {items : List β}
    (begun : ∀ item ∈ items, Begun (text item))
    (read : ∀ item ∈ items, ∀ rest, part (text item ++ ',' :: rest) =
      some (result item, ',' :: rest))
    {closing : Char} (isClosing : closing = ')' ∨ closing = ']') (depth : Nat) (rest : List Char)
    {fuel : Nat} (enough : items.length < fuel) :
    parts closing part fuel (laidOut depth closing (items.map text) rest) =
      some (items.map result, closing :: rest) := by
  induction items generalizing fuel with
  | nil =>
    obtain ⟨fuel, rfl⟩ := Nat.exists_eq_add_one_of_ne_zero (Nat.ne_of_gt enough)
    rw [parts, bind_eq (next?_eq _)]
    exact congrFun (if_pos rfl) _
  | cons item items ih =>
    obtain ⟨fuel, rfl⟩ := Nat.exists_eq_add_one_of_ne_zero
      (Nat.ne_of_gt (Nat.zero_lt_of_lt enough))
    have later := ih (fun item member => begun item (List.mem_cons_of_mem _ member))
      (fun item member => read item (List.mem_cons_of_mem _ member)) (Nat.lt_of_succ_lt_succ enough)
    have visible : Visible (laidOut depth closing (items.map text) rest) := by
      apply visible_laidOut _ isClosing
      intro t member
      obtain ⟨other, listed, rfl⟩ := List.mem_map.mp member
      exact begun other (List.mem_cons_of_mem _ listed)
    have comma := tookComma_comma
      (afterBlanks?_line (if (items.map text).isEmpty then depth else depth + 1) visible)
    have notClosing : (laidOut depth closing ((item :: items).map text) rest).head? ≠
        some closing := by
      obtain ⟨c, more, same, begins⟩ := begun item List.mem_cons_self
      rw [List.map_cons, laidOut, same]
      intro closes
      cases Option.some.inj closes
      rcases isClosing with rfl | rfl <;> exact absurd begins.2 (by decide)
    rw [parts, bind_eq (next?_eq _), if_neg notClosing, List.map_cons, laidOut,
      bind_eq (read item List.mem_cons_self _), bind_eq comma, if_pos rfl, bind_eq later]
    rfl

theorem length_laidOut (depth : Nat) (closing : Char) (items : List (List Char))
    (rest : List Char) : items.length ≤ (laidOut depth closing items rest).length := by
  induction items with
  | nil => exact Nat.zero_le _
  | cons text items ih =>
    rw [laidOut]
    simp only [List.length_append, List.length_cons]
    omega

theorem bracketed_block {levels : Nat} (enough : 1 < levels) {part : Reader α}
    {text : β → List Char} {result : β → α} {items : List β}
    (begun : ∀ item ∈ items, Begun (text item))
    (read : ∀ item ∈ items, ∀ rest, part (text item ++ ',' :: rest) =
      some (result item, ',' :: rest))
    {closing : Char} (isClosing : closing = ')' ∨ closing = ']') (depth : Nat) (opening : Char)
    (rest : List Char) :
    bracketed levels opening closing part
      (spread.block depth opening closing (items.map text) ++ rest) =
      some (items.map result, rest) := by
  have all : ∀ t ∈ items.map text, Begun t := by
    intro t member
    obtain ⟨item, listed, rfl⟩ := List.mem_map.mp member
    exact begun item listed
  have visible := visible_laidOut all isClosing depth rest
  have inside : blanks ((if (items.map text).isEmpty then [] else spread.line (depth + 1)) ++
      laidOut depth closing (items.map text) rest) =
      some ((), laidOut depth closing (items.map text) rest) := by
    apply blanks_eq
    split
    · exact visible
    · exact afterBlanks?_line (depth + 1) visible
  have guarded : ∀ item ∈ items, ∀ rest,
      (do guard (1 < levels); part : Reader α) (text item ++ ',' :: rest) =
        some (result item, ',' :: rest) := by
    intro item member rest
    rw [bind_eq (guard_eq enough _), read item member rest]
  have long := length_laidOut depth closing (items.map text) rest
  rw [List.length_map] at long
  rw [bracketed, block_eq, bind_eq (guard_eq (Nat.zero_lt_of_lt enough) _),
    bind_eq (take_cons opening _), bind_eq inside, bind_eq (get_eq _),
    bind_eq (parts_laidOut begun guarded isClosing depth rest (Nat.lt_succ_of_le long)),
    bind_eq (take_cons closing rest)]
  rfl

theorem visible_intercalate {text : List Char} (begun : Begun text) (texts : List (List Char))
    (rest : List Char) : Visible ([',', ' '].intercalate (text :: texts) ++ rest) := by
  cases texts with
  | nil =>
    rw [List.intercalate_singleton]
    exact (begun.append rest).visible
  | cons next texts =>
    rw [List.intercalate_cons_cons, List.append_assoc, List.append_assoc]
    exact (begun.append _).visible

/-- The items of a tuple are read one after the other, each by its own reader. -/
theorem sequence_intercalate {γ : Type} {part : γ → Reader α} {text : α → List Char}
    {kinds : List γ} {xs : List α}
    (read : List.Forall₂ (fun kind x => Begun (text x) ∧
      ∀ rest, Stops rest → part kind (text x ++ rest) = some (x, rest)) kinds xs)
    (rest : List Char) :
    sequence (kinds.map part) ([',', ' '].intercalate (xs.map text) ++ ')' :: rest) =
      some (xs, ')' :: rest) := by
  induction read with
  | nil => rfl
  | cons first others ih =>
    cases others with
    | nil =>
      rw [List.map_cons, List.map_nil, sequence, List.map_cons, List.map_nil,
        List.intercalate_singleton, bind_eq (first.2 _ (stops_closing rest)),
        bind_eq (tookComma_closing rest)]
      rfl
    | @cons kind y kinds ys second others =>
      have visible := visible_intercalate second.1 (ys.map text) (')' :: rest)
      have comma := tookComma_comma ((afterBlanks?_space _).trans visible)
      simp only [List.map_cons] at ih comma ⊢
      rw [sequence, List.intercalate_cons_cons, List.append_assoc, List.append_assoc,
        List.cons_append, bind_eq (first.2 _ (stops_comma _)), List.cons_append, List.nil_append,
        bind_eq comma, bind_eq (guard_eq rfl _), bind_eq ih]
      · rfl
      · simp

theorem tuple_intercalate {γ : Type} {levels : Nat} (enough : 1 < levels) {part : γ → Reader α}
    {text : α → List Char} {kinds : List γ} {xs : List α}
    (read : List.Forall₂ (fun kind x => Begun (text x) ∧
      ∀ rest, Stops rest → part kind (text x ++ rest) = some (x, rest)) kinds xs)
    (rest : List Char) :
    tuple levels (kinds.map part)
      ('(' :: ([',', ' '].intercalate (xs.map text) ++ [')']) ++ rest) = some (xs, rest) := by
  have visible : Visible ([',', ' '].intercalate (xs.map text) ++ ')' :: rest) := by
    cases read with
    | nil => exact visible_cons rest (by decide)
    | cons first others => exact visible_intercalate first.1 _ _
  rw [List.cons_append, List.append_assoc, List.singleton_append, tuple,
    bind_eq (guard_eq enough _), bind_eq (take_cons '(' _), bind_eq (blanks_eq visible),
    bind_eq (sequence_intercalate read rest), bind_eq (take_cons ')' rest)]
  rfl

theorem optionalName_none (expected : String) {cs : List Char}
    (noWord : cs.head?.any continuesWord = false) :
    optionalName expected cs = some ((), cs) := by
  rw [optionalName, bind_eq (next?_eq cs), noWord]
  rfl

/-! ## Optional values and records -/

theorem begun_word {text : String} (word : isWord text = true) : Begun text.toList := by
  have starts := (Bool.and_eq_true_iff.mp word).1
  cases same : text.toList with
  | nil => rw [same] at starts; cases starts
  | cons c more =>
    rw [same] at starts
    refine ⟨c, more, rfl, ?_⟩
    rcases Bool.or_eq_true_iff.mp (show startsWord c = true from starts) with letter | underscore
    · exact begins_of_isAlphanum (by simp [Char.isAlphanum, letter])
    · rw [of_decide_eq_true underscore]
      decide

variable {extensions : Extensions} {reader : Reader α}

theorem option_absent (rest : List Char) :
    option extensions reader ("None".toList ++ rest) = some (none, rest) := by
  rw [option, bind_eq (took_append "None" rest)]
  rfl

theorem option_present {text : List Char} (begun : Begun text) {x : α}
    (read : reader (text ++ ')' :: rest) = some (x, ')' :: rest)) :
    option extensions reader ("Some(".toList ++ text ++ [')'] ++ rest) = some (some x, rest) := by
  have split : "Some(".toList ++ text ++ [')'] ++ rest =
      "Some".toList ++ ("(".toList ++ (text ++ ')' :: rest)) := by
    simp
  have bracket : blanks ("(".toList ++ (text ++ ')' :: rest)) =
      some ((), "(".toList ++ (text ++ ')' :: rest)) :=
    blanks_eq (visible_cons _ (by decide))
  have inside : blanks (text ++ ')' :: rest) = some ((), text ++ ')' :: rest) :=
    blanks_eq (begun.append _).visible
  rw [split, option, bind_eq (took_none rfl), if_neg Bool.false_ne_true,
    bind_eq (took_append "Some" _), if_pos rfl, bind_eq bracket, bind_eq (took_append "(" _),
    if_pos rfl, bind_eq inside, bind_eq read, bind_eq (tookComma_closing rest),
    bind_eq (take_cons ')' rest)]
  rfl

/-! ## Levels -/

variable (extensions : Extensions) (levels : Nat)

theorem value_eq : ∃ inner part variantPart,
    value extensions levels = valueOf extensions levels inner part variantPart := by
  rcases levels with _ | _ | _ | inside <;> exact ⟨_, _, _, rfl⟩

theorem value_succ : ∃ part variantPart, value extensions (levels + 1) =
    valueOf extensions (levels + 1) (value extensions levels) part variantPart := by
  rcases levels with _ | _ | inside <;> exact ⟨_, _, rfl⟩

theorem value_add_two : ∃ inner variantPart, value extensions (levels + 2) =
    valueOf extensions (levels + 2) inner (value extensions levels) variantPart := by
  rcases levels with _ | inside <;> exact ⟨_, _, rfl⟩

end Reader

/-! ## Values -/

theorem Value.charsOfItems_eq (layout : Layout) (depth : Nat) (items : List Value) :
    charsOfItems layout depth items = items.map (chars layout depth) := by
  induction items with
  | nil => rw [charsOfItems, List.map_nil]
  | cons v items ih => rw [charsOfItems, List.map_cons, ih]

def fieldText (depth : Nat) (field : String × Value) : List Char :=
  field.1.toList ++ ':' :: ' ' :: field.2.chars spread depth

theorem Value.charsOfFields_eq (depth : Nat) (fields : List (String × Value)) :
    charsOfFields spread depth fields = fields.map (fieldText depth) := by
  induction fields with
  | nil => rw [charsOfFields, List.map_nil]
  | cons field fields ih => rw [charsOfFields, List.map_cons, ih]; rfl

/-- The text of a value is read as this value, wherever it stands, if this many levels of
nesting are left or more. -/
structure ReadBack (levels : Nat) (form : Form) (v : Value) : Prop where
  begun : ∀ depth, Begun (v.chars spread depth)
  read : ∀ {available : Nat}, levels ≤ available → ∀ depth {rest : List Char}, Stops rest →
    Reader.value .standard available form (v.chars spread depth ++ rest) = some (v, rest)

namespace ReadBack

variable {levels : Nat} {form : Form} {v : Value}

theorem leaf (begun : ∀ depth, Begun (v.chars spread depth))
    (read : ∀ {available : Nat} {inner part variantPart : Form → Reader Value},
      levels ≤ available → ∀ depth {rest : List Char}, Stops rest →
        Reader.valueOf .standard available inner part variantPart form
          (v.chars spread depth ++ rest) = some (v, rest)) : ReadBack levels form v := by
  constructor
  · exact begun
  · intro available enough depth rest stops
    obtain ⟨inner, part, variantPart, same⟩ := Reader.value_eq .standard available
    rw [same, read enough depth stops]

theorem bracket (begun : ∀ depth, Begun (v.chars spread depth))
    (read : ∀ {available : Nat} {inner variantPart : Form → Reader Value},
      levels ≤ available → ∀ depth {rest : List Char}, Stops rest →
        Reader.valueOf .standard (available + 2) inner (Reader.value .standard available)
          variantPart form (v.chars spread depth ++ rest) = some (v, rest)) :
    ReadBack (levels + 2) form v := by
  constructor
  · exact begun
  · intro available enough depth rest stops
    obtain ⟨available, rfl⟩ := Nat.exists_eq_add_of_le' (Nat.le_of_add_left_le enough)
    obtain ⟨inner, variantPart, same⟩ := Reader.value_add_two .standard available
    rw [same, read (Nat.le_of_add_le_add_right enough) depth stops]

theorem float (levels : Nat) (x : Float) : ReadBack levels .float (.float x) := by
  apply leaf
  · intro depth
    rw [Value.chars]
    have text := savedText x
    generalize NumberForm.saved.chars x = cs at text
    cases text with
    | word text listed value =>
      simp only [List.mem_cons, List.not_mem_nil, or_false] at listed
      rcases listed with rfl | rfl | rfl <;> exact ⟨_, _, rfl, by decide⟩
    | unsigned plain =>
      obtain ⟨c, more, same, digit⟩ := plain.head
      exact ⟨c, more, same, begins_of_isAlphanum (by simp [Char.isAlphanum, digit])⟩
    | negative plain => exact ⟨'-', _, rfl, by decide⟩
  · intro available inner part variantPart enough depth rest stops
    rw [Reader.valueOf, Value.chars, Reader.bind_eq (Reader.float_saved x stops)]
    rfl

theorem natural (levels : Nat) {width n : Nat} (fits : n < 2 ^ width) :
    ReadBack levels (.natural width) (.natural n) := by
  apply leaf
  · intro depth
    rw [Value.chars]
    obtain ⟨c, more, same⟩ := List.exists_cons_of_ne_nil (Nat.toDigits_ne_nil (b := 10) (n := n))
    have digit : c ∈ Nat.toDigits 10 n := by simp [same]
    obtain ⟨d, small, rfl⟩ := Text.mem_toDigits (by decide) digit
    have all : ∀ d < 10, Begins (Nat.digitChar d) := by decide
    exact ⟨_, more, same, all d small⟩
  · intro available inner part variantPart enough depth rest stops
    rw [Reader.valueOf, Value.chars, Reader.bind_eq (Reader.natural_toDigits fits stops)]
    rfl

theorem bool (levels : Nat) (b : Bool) : ReadBack levels .bool (.bool b) := by
  apply leaf
  · intro depth
    rw [Value.chars]
    cases b <;> exact ⟨_, _, rfl, by decide⟩
  · intro available inner part variantPart enough depth rest stops
    rw [Reader.valueOf, Value.chars]
    cases b with
    | true =>
      simp only [↓reduceIte]
      rw [Reader.bind_eq (Reader.took_append "true" rest)]
      rfl
    | false =>
      simp only [Bool.false_eq_true, ↓reduceIte]
      rw [Reader.bind_eq (Reader.took_none rfl), if_neg Bool.false_ne_true,
        Reader.bind_eq (Reader.took_append "false" rest)]
      rfl

theorem string (levels : Nat) (s : String) : ReadBack levels .string (.string s) := by
  apply leaf
  · intro depth
    rw [Value.chars]
    exact ⟨'"', _, rfl, by decide⟩
  · intro available inner part variantPart enough depth rest stops
    rw [Reader.valueOf, Value.chars, Reader.bind_eq (Reader.string_quoted s rest)]
    rfl

theorem choice (levels : Nat) {name : String} (word : Reader.isWord name = true) :
    ReadBack (levels + 2) .choice (.choice name) := by
  apply leaf
  · intro depth
    rw [Value.chars]
    exact Reader.begun_word word
  · intro available inner part variantPart enough depth rest stops
    rw [Reader.valueOf, Value.chars,
      Reader.bind_eq (Reader.guard_eq (Nat.le_of_add_left_le enough) _),
      Reader.bind_eq (Reader.name_word word (Reader.marked_of_stops stops))]
    rfl

theorem absent (levels : Nat) (form : Form) : ReadBack levels (.option form) .absent := by
  apply leaf
  · intro depth
    rw [Value.chars]
    exact ⟨'N', _, rfl, by decide⟩
  · intro available inner part variantPart enough depth rest stops
    rw [Reader.valueOf, Value.chars, Reader.bind_eq (Reader.option_absent rest)]
    rfl

theorem present (back : ReadBack levels form v) :
    ReadBack (levels + 1) (.option form) (.present v) := by
  constructor
  · intro depth
    rw [Value.chars]
    exact ⟨'S', _, rfl, by decide⟩
  · intro available enough depth rest stops
    obtain ⟨available, rfl⟩ := Nat.exists_eq_add_of_le' (Nat.le_of_add_left_le enough)
    obtain ⟨part, variantPart, same⟩ := Reader.value_succ .standard available
    have inner := back.read (Nat.le_of_succ_le_succ enough) depth (stops_closing rest)
    rw [same, Reader.valueOf, Value.chars,
      Reader.bind_eq (Reader.option_present (back.begun depth) inner)]
    rfl

theorem list {items : List Value} (back : ∀ v ∈ items, ReadBack levels form v) :
    ReadBack (levels + 2) (.list form) (.list items) := by
  apply bracket
  · intro depth
    rw [Value.chars]
    exact begun_block depth (by decide) ']' _
  · intro available inner variantPart enough depth rest stops
    have read : ∀ v ∈ items, ∀ rest, Reader.value .standard available form
        (v.chars spread (depth + 1) ++ ',' :: rest) = some (id v, ',' :: rest) := by
      intro v member rest
      exact (back v member).read enough (depth + 1) (stops_comma rest)
    have found := Reader.bracketed_block (Nat.le_add_left 2 available)
      (fun v member => (back v member).begun (depth + 1)) read (.inr rfl) depth '[' rest
    rw [Reader.valueOf, Value.chars, Value.charsOfItems_eq, Reader.bind_eq found, List.map_id]
    rfl

theorem tuple {forms : List Form} {items : List Value}
    (back : List.Forall₂ (ReadBack levels) forms items) {kind : Option String} :
    ReadBack (levels + 2) (.tuple kind forms) (.tuple items) := by
  apply bracket
  · intro depth
    rw [Value.chars]
    exact ⟨'(', _, rfl, by decide⟩
  · intro available inner variantPart enough depth rest stops
    have read : List.Forall₂ (fun form v => Begun (v.chars spread depth) ∧ ∀ rest, Stops rest →
        Reader.value .standard available form (v.chars spread depth ++ rest) = some (v, rest))
        forms items := by
      apply back.imp
      intro form v back
      exact ⟨back.begun depth, fun rest stops => back.read enough depth stops⟩
    have found := Reader.tuple_intercalate (Nat.le_add_left 2 available) read rest
    have gap : ',' :: spread.gap = [',', ' '] := rfl
    rw [Value.chars, Value.charsOfItems_eq, gap]
    unfold Reader.valueOf
    dsimp only
    cases kind with
    | none =>
      dsimp only
      rw [Reader.bind_eq found]
      rfl
    | some kind =>
      dsimp only
      rw [Reader.bind_eq (Reader.optionalName_none kind rfl), Reader.bind_eq found]
      rfl

end ReadBack

structure FieldsBack (levels : Nat) (forms : List (String × Form))
    (fields : List (String × Value)) : Prop where
  distinct : (fields.map (·.1)).Nodup
  word : ∀ field ∈ fields, Reader.isWord field.1 = true
  back : ∀ field ∈ fields, ∃ form, forms.lookup field.1 = some form ∧ ReadBack levels form field.2

namespace FieldsBack

variable {levels : Nat} {forms : List (String × Form)} {fields : List (String × Value)}

theorem read (found : FieldsBack levels forms fields) {above available : Nat} (enough : 1 < above)
    (le : levels ≤ available) (other : Reader Unit) (depth : Nat) (rest : List Char) :
    Reader.fields above forms (Reader.value .standard available) other
      (spread.block depth '(' ')' (Value.charsOfFields spread (depth + 1) fields) ++ rest) =
      some (fields, rest) := by
  have begun : ∀ field ∈ fields, Begun (fieldText (depth + 1) field) :=
    fun field member => (Reader.begun_word (found.word field member)).append _
  have part : ∀ field ∈ fields, ∀ rest,
      Reader.field forms (Reader.value .standard available) other
        (fieldText (depth + 1) field ++ ',' :: rest) = some (some field, ',' :: rest) := by
    intro field member rest
    obtain ⟨form, listed, back⟩ := found.back field member
    have split : fieldText (depth + 1) field ++ ',' :: rest =
        field.1.toList ++ ':' :: ' ' :: (field.2.chars spread (depth + 1) ++ ',' :: rest) := by
      simp [fieldText]
    have visible := ((back.begun (depth + 1)).append (',' :: rest)).visible
    rw [split, Reader.field,
      Reader.bind_eq (Reader.name_word (found.word field member) (Reader.marked_cons (.inl rfl) _)),
      Reader.bind_eq (Reader.blanks_eq (visible_cons _ (by decide))),
      Reader.bind_eq (Reader.take_cons ':' _),
      Reader.bind_eq (Reader.blanks_eq ((afterBlanks?_space _).trans visible)), listed]
    dsimp only
    rw [Reader.bind_eq (back.read le (depth + 1) (stops_comma rest))]
    rfl
  have all := Reader.bracketed_block enough begun part (.inl rfl) depth '(' rest
  have kept : (fields.map some).filterMap id = fields := by
    rw [List.filterMap_map]
    exact List.filterMap_some
  rw [Value.charsOfFields_eq, Reader.fields, Reader.bind_eq all, kept,
    Reader.bind_eq (Reader.guard_eq found.distinct _)]
  rfl

theorem record (found : FieldsBack levels forms fields) (kind : String) :
    ReadBack (levels + 2) (.record kind forms) (.record none fields) := by
  apply ReadBack.bracket
  · intro depth
    rw [Value.chars]
    exact begun_block depth (by decide) ')' _
  · intro available inner variantPart enough depth rest stops
    have read := found.read (Nat.le_add_left 2 available) enough
      (Reader.skip .standard (available + 2 - 2)) depth rest
    obtain ⟨inside, opens⟩ := exists_block depth '(' ')'
      (Value.charsOfFields spread (depth + 1) fields)
    have noKind : ((none : Option String).getD "").toList = [] := rfl
    rw [opens, List.cons_append] at read
    rw [Value.chars, noKind, List.nil_append, opens, List.cons_append, Reader.valueOf,
      Reader.bind_eq (Reader.optionalName_none kind rfl),
      Reader.bind_eq (Reader.blanks_eq (visible_cons _ (by decide))), Reader.bind_eq read]
    rfl

theorem variant (found : FieldsBack levels forms fields) {kind : String}
    (word : Reader.isWord kind = true) {kinds : List (String × List (String × Form))}
    (listed : kinds.lookup kind = some forms) :
    ReadBack (levels + 3) (.variants kinds) (.record (some kind) fields) := by
  constructor
  · intro depth
    rw [Value.chars]
    exact (Reader.begun_word word).append _
  · intro available enough depth rest stops
    obtain ⟨available, rfl⟩ := Nat.exists_eq_add_of_le' (Nat.le_of_add_left_le enough)
    have same : Reader.value .standard (available + 3) = Reader.valueOf .standard (available + 3)
        (Reader.value .standard (available + 2)) (Reader.value .standard (available + 1))
        (Reader.value .standard available) := rfl
    have read := found.read (show 1 < available + 3 - 1 by omega)
      (Nat.le_of_add_le_add_right enough) (Reader.skip .standard (available + 3 - 3)) depth rest
    obtain ⟨inside, opens⟩ := exists_block depth '(' ')'
      (Value.charsOfFields spread (depth + 1) fields)
    have named := Reader.name_word word (Reader.marked_cons (c := '(') (.inr rfl) (inside ++ rest))
    rw [opens, List.cons_append] at read
    rw [same, Value.chars, Option.getD_some, opens, Reader.valueOf, List.append_assoc,
      Reader.bind_eq (Reader.guard_eq (Nat.le_add_left 2 _) _), List.cons_append,
      Reader.bind_eq named, Reader.bind_eq (Reader.blanks_eq (visible_cons _ (by decide))), listed]
    dsimp only
    rw [Reader.bind_eq read]
    rfl

end FieldsBack

/-- A value that is read back can be read from the text it is written as. -/
theorem ReadBack.read? {form : Form} {v : Value} (back : ReadBack levelLimit form v) :
    read? form (v.write .spread) = some v := by
  have read := back.read (Nat.le_refl levelLimit) 0 stops_nil
  obtain ⟨c, more, same, begins⟩ := back.begun 0
  rw [List.append_nil, same] at read
  have front : (some c : Option Char) ≠ some '#' := by
    rintro marked
    cases marked
    exact absurd begins.2 (by decide)
  have noAttribute : Reader.attributes .standard ((c :: more).length + 1) (c :: more) =
      some (.standard, c :: more) := by
    rw [Reader.attributes, Reader.bind_eq (Reader.next?_eq _)]
    exact congrFun (if_pos front) _
  have nothing : Reader.blanks [] = some ((), []) := rfl
  have whole : Reader.text form (c :: more) = some (v, []) := by
    rw [Reader.text, Reader.bind_eq (Reader.blanks_eq (visible_cons more begins.1)),
      Reader.bind_eq (Reader.get_eq _), Reader.bind_eq noAttribute, Reader.bind_eq read,
      Reader.bind_eq nothing, Reader.bind_eq (Reader.get_eq _),
      Reader.bind_eq (Reader.guard_eq List.isEmpty_nil _)]
    rfl
  rw [Ron.read?, Value.write, String.toList_ofList, same, whole]
  rfl

end Parametric.Ron
