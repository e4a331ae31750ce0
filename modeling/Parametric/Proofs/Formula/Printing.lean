import Parametric.Proofs.Formula.Parsing
import Parametric.Proofs.Formula.Scanning
/-! The text of an expression is parsed to that expression.

A text reads as an expression in a category of the grammar if its tokens derive
it there, whatever follows that no name or numeral could take up. Each construct
of the printer keeps this, since it leaves out parentheses only around an operand
that is of the category asked for.
-/

set_option autoImplicit false

namespace Parametric

open Token

/-- Numbers are finite and without sign, and names are names. -/
inductive Expr.Printable : Expr → Prop where
  | number {value : Float} (finite : value.isFinite = true)
      (unsigned : NumberForm.isNegative value = false) : Printable (.number value)
  | name {text : String} (word : Token.isName text = true) : Printable (.name text)
  | signed {sign : Sign} {operand : Expr} (inner : Printable operand) :
      Printable (.signed sign operand)
  | binary {operator : Operator} {left right : Expr} (first : Printable left)
      (second : Printable right) : Printable (.binary operator left right)
  | call {function : String} {arguments : List Expr} (word : Token.isName function = true)
      (each : ∀ a ∈ arguments, Printable a) : Printable (.call function arguments)

namespace Formula

/-! ## Categories by strength -/

def Category.strength : Category → Nat
  | additive => 1
  | multiplicative => 2
  | power => 3
  | unary => 4
  | primary => 5

theorem Category.additive_le (c : Category) : strength .additive ≤ c.strength := by
  cases c <;> decide

theorem Category.le_primary (c : Category) : c.strength ≤ strength .primary := by
  cases c <;> decide

theorem Derives.weaken {tight loose : Category} {ks : List TokenKind} {e : Expr}
    (weaker : loose.strength ≤ tight.strength) (derived : Derives tight ks e) :
    Derives loose ks e := by
  -- One rule of the grammar leads from each category to the next looser one.
  have unary (derived : Derives .primary ks e) : Derives .unary ks e := .operand derived
  have power (derived : Derives .unary ks e) : Derives .power ks e := .base derived
  have product (derived : Derives .power ks e) : Derives .multiplicative ks e := .factor derived
  have sum (derived : Derives .multiplicative ks e) : Derives .additive ks e := .term derived
  cases tight <;> cases loose <;> simp [Category.strength] at weaker <;> tauto

end Formula

namespace Operator

open Formula

def symbol : Operator → Symbol
  | add => .plus
  | sub => .minus
  | mul => .star
  | div => .slash
  | pow => .caret

theorem char_eq (op : Operator) : op.char = op.symbol.char := by
  cases op <;> rfl

def category : Operator → Category
  | add | sub => .additive
  | mul | div => .multiplicative
  | pow => .power

def leftCategory : Operator → Category
  | add | sub => .additive
  | mul | div => .multiplicative
  | pow => .unary

def rightCategory : Operator → Category
  | add | sub => .multiplicative
  | mul | div => .power
  | pow => .power

-- The sides on which an operator of equal strength may stand without parentheses are those
-- to which the grammar groups.
theorem leftCategory_strength (op : Operator) :
    op.leftCategory.strength = if op.groupsRight then op.strength + 1 else op.strength := by
  cases op <;> rfl

theorem rightCategory_strength (op : Operator) :
    op.rightCategory.strength = if op.groupsRight then op.strength else op.strength + 1 := by
  cases op <;> rfl

theorem derives {op : Operator} {ls rs : List TokenKind} {a b : Expr}
    (left : Derives op.leftCategory ls a) (right : Derives op.rightCategory rs b) :
    Derives op.category (ls ++ .symbol op.symbol :: rs) (.binary op a b) := by
  cases op with
  | add => exact .sum .plus left right
  | sub => exact .sum .minus left right
  | mul => exact .product .multiply left right
  | div => exact .product .divide left right
  | pow => exact .raised left right

end Operator

namespace Expr

open Formula

def category : Expr → Category
  | binary op _ _ => op.category
  | signed _ _ => .unary
  | number _ | name _ | call _ _ => .primary

theorem category_strength (e : Expr) : e.category.strength = e.strength := by
  cases e with
  | binary op left right => cases op <;> rfl
  | _ => rfl

end Expr

namespace Formula

/-! ## Texts -/

/-- The text, before one that stops names and numerals, gives tokens of an expression. -/
def Reads (category : Category) (cs : List Char) (e : Expr) : Prop :=
  ∃ ks, Derives category ks e ∧
    ∀ rest more, Stops rest → Scans rest more → Scans (cs ++ rest) (ks ++ more)

namespace Reads

variable {category : Category} {cs ls rs : List Char} {e a b : Expr}

theorem weaken {loose : Category} (weaker : loose.strength ≤ category.strength)
    (reads : Reads category cs e) : Reads loose cs e := by
  obtain ⟨ks, derived, scans⟩ := reads
  exact ⟨ks, derived.weaken weaker, scans⟩

theorem parentheses (reads : Reads .additive cs e) : Reads .primary ('(' :: cs ++ [')']) e := by
  obtain ⟨ks, derived, scans⟩ := reads
  refine ⟨_, .parentheses derived, fun rest more stops following => ?_⟩
  have closed := scans _ _ (stops_symbol .closing rest) (scans_symbol .closing following)
  simpa [Symbol.char] using scans_symbol .opening closed

theorem parenthesized {needed : Bool} (reads : Reads e.category cs e)
    (tight : needed = false → category.strength ≤ e.strength) :
    Reads category (Expr.parenthesized needed cs) e := by
  unfold Expr.parenthesized
  cases needed with
  | true => exact (reads.weaken e.category.additive_le).parentheses.weaken category.le_primary
  | false => exact reads.weaken (e.category_strength ▸ tight rfl)

theorem signed (sign : Sign) (reads : Reads .unary cs e) :
    Reads .unary (sign.char :: cs) (.signed sign e) := by
  obtain ⟨ks, derived, scans⟩ := reads
  refine ⟨_, .signed sign derived, fun rest more stops following => ?_⟩
  have same : sign.char = sign.symbol.char := by cases sign <;> rfl
  rw [same]
  exact scans_symbol sign.symbol (scans rest more stops following)

theorem binary {op : Operator} (left : Reads op.leftCategory ls a)
    (right : Reads op.rightCategory rs b) :
    Reads op.category (ls ++ ' ' :: op.char :: ' ' :: rs) (.binary op a b) := by
  obtain ⟨lks, first, scansLeft⟩ := left
  obtain ⟨rks, second, scansRight⟩ := right
  refine ⟨_, op.derives first second, fun rest more stops following => ?_⟩
  have tail := scans_symbol op.symbol (scans_blank (scansRight rest more stops following))
  have whole := scansLeft _ _ (stops_blank _) (scans_blank tail)
  simpa [op.char_eq] using whole

-- A comma and a blank stand between arguments, and what follows an argument must stop it.
theorem arguments {arguments : List Expr}
    (each : ∀ a ∈ arguments, Reads .additive a.chars a) :
    ∃ pairs : List (List TokenKind × Expr), (∀ p ∈ pairs, Derives .additive p.1 p.2) ∧
      pairs.map (·.2) = arguments ∧ ∀ rest more, Stops rest → Scans rest more →
        Scans (Expr.charsAll arguments ++ rest)
          ([.symbol .comma].intercalate (pairs.map (·.1)) ++ more) := by
  induction arguments with
  | nil => exact ⟨[], by simp, rfl, fun rest more _ following => following⟩
  | cons e others ih =>
    obtain ⟨ks, derived, scans⟩ := each e (by simp)
    obtain ⟨pairs, all, same, scansAll⟩ := ih fun a later => each a (List.mem_cons_of_mem _ later)
    refine ⟨(ks, e) :: pairs, List.forall_mem_cons.mpr ⟨derived, all⟩, by simp [same], ?_⟩
    intro rest more stops following
    cases pairs with
    | nil =>
      obtain rfl : [] = others := same
      simpa [Expr.charsAll] using scans rest more stops following
    | cons next pairs =>
      cases others with
      | nil => cases same
      | cons f others =>
        have tail := scans_symbol .comma (scans_blank (scansAll rest more stops following))
        have whole := scans _ _ (stops_symbol .comma _) tail
        simpa [Expr.charsAll, Symbol.char, List.intercalate_cons_cons] using whole

theorem call {function : String} {arguments : List Expr} (word : Token.isName function = true)
    (each : ∀ a ∈ arguments, Reads .additive a.chars a) :
    Reads .primary (Expr.call function arguments).chars (.call function arguments) := by
  obtain ⟨pairs, all, rfl, scans⟩ := Reads.arguments each
  refine ⟨_, .call function pairs all, fun rest more stops following => ?_⟩
  have closed := scans _ _ (stops_symbol .closing rest) (scans_symbol .closing following)
  have whole := scans_name word (stops_symbol .opening _) (scans_symbol .opening closed)
  simpa [Expr.chars, Symbol.char] using whole

end Reads

/-- The printer leaves out parentheses only where the grammar groups alike. -/
theorem reads_chars {e : Expr} (printable : e.Printable) : Reads e.category e.chars e := by
  induction printable with
  | number finite unsigned =>
    -- The written number is a numeral, so the scanner takes all of it.
    obtain ⟨n, plain, text, rfl⟩ :=
      NumberForm.plain.exists_plain (fun _ => rfl) finite unsigned
    refine ⟨_, .number n.value, fun rest more stops following => ?_⟩
    rw [Expr.chars, text]
    exact scans_numeral plain finite stops following
  | name word =>
    exact ⟨_, .name _, fun rest more stops following => scans_name word stops following⟩
  | signed inner reads =>
    refine .signed _ (reads.parenthesized fun tight => ?_)
    exact not_lt.mp (of_decide_eq_false tight)
  | @binary op left right first second readsLeft readsRight =>
    -- Without parentheses an operand is as strong as the grammar asks on its side.
    refine .binary (readsLeft.parenthesized fun tight => ?_)
      (readsRight.parenthesized fun tight => ?_)
    · have within := of_decide_eq_false tight
      rw [Operator.leftCategory_strength]
      split_ifs at within ⊢ <;> omega
    · have within := of_decide_eq_false tight
      rw [Operator.rightCategory_strength]
      split_ifs at within ⊢ <;> omega
  | call word each reads =>
    exact .call word fun a member => (reads a member).weaken a.category.additive_le

theorem parse_text {e : Expr} (printable : e.Printable) : parse e.text = .ok e := by
  obtain ⟨ks, derived, scans⟩ := (reads_chars printable).weaken e.category.additive_le
  have text := scans [] [] stops_nil scans_nil
  rw [List.append_nil, List.append_nil] at text
  refine parse_of_scans ?_ derived
  rwa [Expr.text, String.toList_ofList]

/-! ## Parsed trees -/

theorem mem_intercalate {α : Type} (separator : α) {x : α} {xs : List α} {lists : List (List α)}
    (listed : xs ∈ lists) (member : x ∈ xs) : x ∈ [separator].intercalate lists := by
  induction lists with
  | nil => cases listed
  | cons first rest ih =>
    cases rest with
    | nil =>
      obtain rfl := List.mem_singleton.mp listed
      simpa using member
    | cons second rest =>
      rw [List.intercalate_cons_cons]
      rcases List.mem_cons.mp listed with rfl | later
      · simp [member]
      · exact List.mem_append_right _ (ih later)

theorem Derives.printable {category : Category} {ks : List TokenKind} {e : Expr}
    (derived : Derives category ks e) (lexical : ∀ k ∈ ks, Lexical k) : e.Printable := by
  induction derived with
  | number value =>
    obtain ⟨finite, unsigned⟩ := lexical (.number value) (by simp)
    exact .number finite unsigned
  | name text => exact .name (lexical (.name text) (by simp))
  | call function arguments each ih =>
    refine .call (lexical (.name function) (by simp)) fun e member => ?_
    obtain ⟨a, listed, rfl⟩ := List.mem_map.mp member
    refine ih a listed fun k inside => lexical k ?_
    have between := mem_intercalate (.symbol .comma) (List.mem_map.mpr ⟨a, listed, rfl⟩) inside
    simp [between]
  | parentheses inner ih => exact ih fun k member => lexical k (by simp [member])
  | operand primary ih => exact ih lexical
  | signed sign operand ih => exact .signed (ih fun k member => lexical k (by simp [member]))
  | base unary ih => exact ih lexical
  | raised base exponent ihBase ihExponent =>
    exact .binary (ihBase fun k member => lexical k (by simp [member]))
      (ihExponent fun k member => lexical k (by simp [member]))
  | factor power ih => exact ih lexical
  | product scaling left right ihLeft ihRight =>
    exact .binary (ihLeft fun k member => lexical k (by simp [member]))
      (ihRight fun k member => lexical k (by simp [member]))
  | term product ih => exact ih lexical
  | sum sign left right ihLeft ihRight =>
    exact .binary (ihLeft fun k member => lexical k (by simp [member]))
      (ihRight fun k member => lexical k (by simp [member]))

theorem printable_of_parse {source : String} {e : Expr} (parsed : parse source = .ok e) :
    e.Printable := by
  obtain ⟨tokens, scanned, derived⟩ := parse_eq_ok.mp parsed
  refine derived.printable fun k member => ?_
  obtain ⟨t, listed, rfl⟩ := List.mem_map.mp member
  exact allFrom_lexical scanned t listed

/-- Parsing undoes printing: every printable tree is read back from its text, and every tree
that a text is parsed to is printable. -/
theorem parse_print :
    (∀ e : Expr, e.Printable → parse e.text = .ok e) ∧
    ∀ (source : String) (e : Expr), parse source = .ok e →
      e.Printable ∧ parse e.text = .ok e :=
  ⟨fun _ printable => parse_text printable, fun _ _ parsed =>
    ⟨printable_of_parse parsed, parse_text (printable_of_parse parsed)⟩⟩

def grouped : Expr :=
  .binary .mul (.signed .minus (.binary .add (.name "a") (.number 2.5)))
    (.call "max" [.name "b", .binary .pow (.name "c") (.binary .pow (.name "d") (.number 0.1))])

theorem parse_print_grouped :
    grouped.text = "-(a + 2.5) * max(b, c ^ d ^ 0.1)" ∧ grouped.Printable ∧
      parse "-(a + 2.5) * max(b, c ^ d ^ 0.1)" = .ok grouped := by
  have text : grouped.text = "-(a + 2.5) * max(b, c ^ d ^ 0.1)" := by decide +kernel
  have sum : Expr.Printable (.binary .add (.name "a") (.number 2.5)) :=
    .binary (.name (by decide)) (.number (by decide +kernel) (by decide +kernel))
  have power : Expr.Printable (.binary .pow (.name "d") (.number 0.1)) :=
    .binary (.name (by decide)) (.number (by decide +kernel) (by decide +kernel))
  have arguments : ∀ a ∈ [.name "b",
      .binary .pow (.name "c") (.binary .pow (.name "d") (.number 0.1))], Expr.Printable a := by
    simpa using ⟨.name (by decide), .binary (.name (by decide)) power⟩
  have printable : grouped.Printable := .binary (.signed sum) (.call (by decide) arguments)
  have parsed := parse_print.1 grouped printable
  obtain ⟨printable, again⟩ := parse_print.2 _ _ parsed
  exact ⟨text, printable, text ▸ again⟩

end Formula

end Parametric
