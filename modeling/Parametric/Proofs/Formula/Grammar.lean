import Parametric.Formula.Parser
/-! The grammar of formulas, and what a state of the parser has read so far.

The grammar relates token kinds to trees, one rule for each alternative. What a
state of the parser keeps is spelled out as the tokens it was read from, so that
each chain, when it is closed, derives a tree of its category.
-/

set_option autoImplicit false

namespace Parametric

def Sign.symbol : Sign → Symbol
  | plus => .plus
  | minus => .minus

namespace Formula

def Scaling.symbol : Scaling → Symbol
  | multiply => .star
  | divide => .slash

/-- The categories of the grammar, from loosest to tightest. -/
inductive Category where
  | additive
  | multiplicative
  | power
  | unary
  | primary
  deriving DecidableEq, Repr

/-- The tokens derive the tree in a category of the grammar

    additive       := multiplicative (('+' | '-') multiplicative)*
    multiplicative := power (('*' | '/') power)*
    power          := unary ('^' power)?
    unary          := ('+' | '-') unary | primary
    primary        := number | name | name '(' args? ')' | '(' additive ')'

where sums and products group to the left. Arguments stand with their tokens. -/
inductive Derives : Category → List TokenKind → Expr → Prop where
  | number (value : Float) : Derives .primary [.number value] (.number value)
  | name (text : String) : Derives .primary [.name text] (.name text)
  | call (function : String) (arguments : List (List TokenKind × Expr))
      (each : ∀ a ∈ arguments, Derives .additive a.1 a.2) :
      Derives .primary
        (.name function :: .symbol .opening ::
          ([.symbol .comma].intercalate (arguments.map (·.1)) ++ [.symbol .closing]))
        (.call function (arguments.map (·.2)))
  | parentheses {ks : List TokenKind} {e : Expr} (inner : Derives .additive ks e) :
      Derives .primary (.symbol .opening :: (ks ++ [.symbol .closing])) e
  | operand {ks : List TokenKind} {e : Expr} (primary : Derives .primary ks e) :
      Derives .unary ks e
  | signed (sign : Sign) {ks : List TokenKind} {e : Expr} (operand : Derives .unary ks e) :
      Derives .unary (.symbol sign.symbol :: ks) (.signed sign e)
  | base {ks : List TokenKind} {e : Expr} (unary : Derives .unary ks e) : Derives .power ks e
  | raised {ls rs : List TokenKind} {a b : Expr} (base : Derives .unary ls a)
      (exponent : Derives .power rs b) :
      Derives .power (ls ++ .symbol .caret :: rs) (.binary .pow a b)
  | factor {ks : List TokenKind} {e : Expr} (power : Derives .power ks e) :
      Derives .multiplicative ks e
  | product (scaling : Scaling) {ls rs : List TokenKind} {a b : Expr}
      (left : Derives .multiplicative ls a) (right : Derives .power rs b) :
      Derives .multiplicative (ls ++ .symbol scaling.symbol :: rs) (.binary scaling.operator a b)
  | term {ks : List TokenKind} {e : Expr} (product : Derives .multiplicative ks e) :
      Derives .additive ks e
  | sum (sign : Sign) {ls rs : List TokenKind} {a b : Expr}
      (left : Derives .additive ls a) (right : Derives .multiplicative rs b) :
      Derives .additive (ls ++ .symbol sign.symbol :: rs) (.binary (sumOperator sign) a b)

/-! ## Signs and chains -/

/-- The tokens of signs, the last one read first. -/
def signKinds (signs : List Sign) : List TokenKind :=
  signs.reverse.map (.symbol ·.symbol)

@[simp] theorem signKinds_nil : signKinds [] = [] := rfl

@[simp] theorem signKinds_cons (sign : Sign) (signs : List Sign) :
    signKinds (sign :: signs) = signKinds signs ++ [.symbol sign.symbol] := by
  simp [signKinds]

theorem applySigns_derives {signs : List Sign} {ks : List TokenKind} {e : Expr}
    (operand : Derives .unary ks e) :
    Derives .unary (signKinds signs ++ ks) (applySigns signs e) := by
  induction signs generalizing ks e with
  | nil => exact operand
  | cons sign signs ih =>
    have inner := ih (.signed sign operand)
    simpa [applySigns] using inner

def Waiting {Mark : Type} (category : Category) (symbol : Mark → Symbol) :
    Option (Expr × Mark) → List TokenKind → Prop
  | none, ks => ks = []
  | some (left, mark), ks =>
    ∃ ls, Derives category ls left ∧ ks = ls ++ [.symbol (symbol mark)]

def Bases : List Expr → List TokenKind → Prop
  | [], ks => ks = []
  | base :: rest, ks =>
    ∃ before ls, Bases rest before ∧ Derives .unary ls base ∧ ks = before ++ ls ++ [.symbol .caret]

namespace Chains

def Spelled (chains : Chains) (ks : List TokenKind) : Prop :=
  ∃ ss ps bs, Waiting .additive Sign.symbol chains.sum ss ∧
    Waiting .multiplicative Scaling.symbol chains.product ps ∧ Bases chains.powers bs ∧
    ks = ss ++ ps ++ bs

@[simp] theorem empty_spelled : empty.Spelled [] :=
  ⟨[], [], [], rfl, rfl, rfl, rfl⟩

theorem closePowers_derives {chains : Chains} {bs ks : List TokenKind} {e : Expr}
    (bases : Bases chains.powers bs) (operand : Derives .unary ks e) :
    Derives .power (bs ++ ks) (chains.closePowers e) := by
  -- The last base read is folded first, and is raised to what has been folded so far.
  have closing : ∀ (powers : List Expr) (bs ks : List TokenKind) (e : Expr), Bases powers bs →
      Derives .power ks e →
      Derives .power (bs ++ ks)
        (powers.foldl (fun exponent base => .binary .pow base exponent) e) := by
    intro powers
    induction powers with
    | nil =>
      intro bs ks e bases exponent
      obtain rfl : bs = [] := bases
      exact exponent
    | cons base rest ih =>
      rintro _ ks e ⟨before, ls, waiting, left, rfl⟩ exponent
      have inner := ih before _ _ waiting (.raised left exponent)
      simpa using inner
  exact closing _ _ _ _ bases (.base operand)

theorem closeProduct_derives {chains : Chains} {ps bs ks : List TokenKind} {e : Expr}
    (product : Waiting .multiplicative Scaling.symbol chains.product ps)
    (bases : Bases chains.powers bs) (operand : Derives .unary ks e) :
    Derives .multiplicative (ps ++ bs ++ ks) (chains.closeProduct e) := by
  have power := closePowers_derives bases operand
  unfold closeProduct
  cases waits : chains.product with
  | none =>
    rw [waits] at product
    obtain rfl : ps = [] := product
    exact .factor power
  | some pair =>
    obtain ⟨left, scaling⟩ := pair
    rw [waits] at product
    obtain ⟨ls, derived, rfl⟩ := product
    simpa using Derives.product scaling derived power

theorem close_derives {chains : Chains} {cs ks : List TokenKind} {e : Expr}
    (spelled : chains.Spelled cs) (operand : Derives .unary ks e) :
    Derives .additive (cs ++ ks) (chains.close e) := by
  obtain ⟨ss, ps, bs, sum, product, bases, rfl⟩ := spelled
  have derived := closeProduct_derives product bases operand
  unfold close
  cases waits : chains.sum with
  | none =>
    rw [waits] at sum
    obtain rfl : ss = [] := sum
    exact .term (by simpa using derived)
  | some pair =>
    obtain ⟨left, sign⟩ := pair
    rw [waits] at sum
    obtain ⟨ls, first, rfl⟩ := sum
    simpa using Derives.sum sign first derived

theorem spelled_sum {chains : Chains} {cs ks : List TokenKind} {e : Expr} (sign : Sign)
    (spelled : chains.Spelled cs) (operand : Derives .unary ks e) :
    (Chains.mk (some (chains.close e, sign)) none []).Spelled (cs ++ ks ++ [.symbol sign.symbol]) :=
  ⟨_, [], [], ⟨_, close_derives spelled operand, rfl⟩, rfl, rfl, by simp⟩

theorem spelled_product {chains : Chains} {cs ks : List TokenKind} {e : Expr} (scaling : Scaling)
    (spelled : chains.Spelled cs) (operand : Derives .unary ks e) :
    (Chains.mk chains.sum (some (chains.closeProduct e, scaling)) []).Spelled
      (cs ++ ks ++ [.symbol scaling.symbol]) := by
  obtain ⟨ss, ps, bs, sum, product, bases, rfl⟩ := spelled
  exact ⟨ss, _, [], sum, ⟨_, closeProduct_derives product bases operand, rfl⟩, rfl, by simp⟩

theorem spelled_power {chains : Chains} {cs ks : List TokenKind} {e : Expr}
    (spelled : chains.Spelled cs) (operand : Derives .unary ks e) :
    ({ chains with powers := e :: chains.powers } : Chains).Spelled
      (cs ++ ks ++ [.symbol .caret]) := by
  obtain ⟨ss, ps, bs, sum, product, bases, rfl⟩ := spelled
  exact ⟨ss, ps, _, sum, product, ⟨bs, ks, bases, operand, rfl⟩, by simp⟩

end Chains

/-! ## Open parentheses -/

def argumentKinds (arguments : List (List TokenKind × Expr)) : List TokenKind :=
  arguments.flatMap fun a => a.1 ++ [.symbol .comma]

theorem argumentKinds_append (arguments : List (List TokenKind × Expr))
    (last : List TokenKind × Expr) :
    argumentKinds arguments ++ last.1 =
      [.symbol .comma].intercalate ((arguments ++ [last]).map (·.1)) := by
  induction arguments with
  | nil => simp [argumentKinds]
  | cons first rest ih =>
    have tail : argumentKinds (first :: rest) ++ last.1 =
        first.1 ++ [.symbol .comma] ++ (argumentKinds rest ++ last.1) := by
      simp [argumentKinds]
    rw [tail, ih]
    cases rest <;> simp [List.intercalate_cons_cons]

namespace Level

/-- The tokens of an open parenthesis and of the finished arguments of its call. -/
def Spelled (level : Level) (ks : List TokenKind) : Prop :=
  match level.callee with
  | none => ks = [.symbol .opening]
  | some (function, finished) => ∃ arguments : List (List TokenKind × Expr),
    (∀ a ∈ arguments, Derives .additive a.1 a.2) ∧ arguments.map (·.2) = finished.reverse ∧
      ks = .name function :: .symbol .opening :: argumentKinds arguments

theorem close_derives {level : Level} {hs ks : List TokenKind} {e : Expr}
    (spelled : level.Spelled hs) (inner : Derives .additive ks e) :
    Derives .unary (signKinds level.signs ++ (hs ++ ks ++ [.symbol .closing])) (level.close e) := by
  apply applySigns_derives
  unfold Spelled at spelled
  cases callee : level.callee with
  | none =>
    simp only [callee] at spelled
    subst spelled
    exact .operand (.parentheses inner)
  | some pair =>
    obtain ⟨function, finished⟩ := pair
    simp only [callee] at spelled
    obtain ⟨arguments, each, same, rfl⟩ := spelled
    have all : ∀ a ∈ arguments ++ [(ks, e)], Derives .additive a.1 a.2 := by
      intro a member
      rcases List.mem_append.mp member with earlier | last
      · exact each a earlier
      · obtain rfl := List.mem_singleton.mp last
        exact inner
    have derived := Derives.call function _ all
    rw [← argumentKinds_append] at derived
    simpa [same] using Derives.operand derived

theorem spelled_comma {level : Level} {function : String} {finished : List Expr}
    {hs ks : List TokenKind} {e : Expr} (callee : level.callee = some (function, finished))
    (spelled : level.Spelled hs) (inner : Derives .additive ks e) :
    ({ level with callee := some (function, e :: finished) } : Level).Spelled
      (hs ++ ks ++ [.symbol .comma]) := by
  simp only [Spelled, callee] at spelled
  obtain ⟨arguments, each, same, rfl⟩ := spelled
  refine ⟨arguments ++ [(ks, e)], ?_, by simp [same], by simp [argumentKinds]⟩
  intro a member
  rcases List.mem_append.mp member with earlier | last
  · exact each a earlier
  · obtain rfl := List.mem_singleton.mp last
    exact inner

end Level

/-- The tokens before the innermost open parenthesis, with what waits there, and that
parenthesis. -/
def Opened : List Level → List TokenKind → Prop
  | [], ks => ks = []
  | level :: outer, ks => ∃ os cs hs, Opened outer os ∧ level.chains.Spelled cs ∧
    level.Spelled hs ∧ ks = os ++ cs ++ signKinds level.signs ++ hs

end Formula

end Parametric
