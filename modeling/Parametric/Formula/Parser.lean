import Parametric.Formula.Token
import Parametric.Formula.Expr
/-! Parsing a formula.

From loosest to tightest: sums and products group to the left, powers to the
right, signs stand before an operand and bind tighter than powers, and operands
are numbers, names, calls and parenthesized formulas.

The state of the parser holds, for each open parenthesis and for the outermost
level, what waits for the operand that is being read: the left side of a sum,
the left side of a product, the bases of powers, and signs. One step takes one
token.
-/

set_option autoImplicit false

namespace Parametric.Formula

inductive Scaling where
  | multiply
  | divide
  deriving DecidableEq, Repr

def Scaling.operator : Scaling → Operator
  | multiply => .mul
  | divide => .div

def sumOperator : Sign → Operator
  | .plus => .add
  | .minus => .sub

/-- What waits for an operand at one level of parentheses, signs apart. -/
structure Chains where
  sum : Option (Expr × Sign)
  product : Option (Expr × Scaling)
  powers : List Expr
  deriving BEq, Repr

namespace Chains

def empty : Chains := ⟨none, none, []⟩

def closePowers (chains : Chains) (operand : Expr) : Expr :=
  chains.powers.foldl (fun exponent base => .binary .pow base exponent) operand

def closeProduct (chains : Chains) (operand : Expr) : Expr :=
  match chains.product with
  | none => chains.closePowers operand
  | some (left, scaling) => .binary scaling.operator left (chains.closePowers operand)

def close (chains : Chains) (operand : Expr) : Expr :=
  match chains.sum with
  | none => chains.closeProduct operand
  | some (left, sign) => .binary (sumOperator sign) left (chains.closeProduct operand)

end Chains

def applySigns (signs : List Sign) (operand : Expr) : Expr :=
  signs.foldl (fun e sign => .signed sign e) operand

structure Level where
  /-- The function and its finished arguments, last one first, for the parenthesis of a call. -/
  callee : Option (String × List Expr)
  offset : Nat
  signs : List Sign
  chains : Chains
  deriving BEq, Repr

/-- The operand that a closing parenthesis after `inner` makes, with its signs. -/
def Level.close (level : Level) (inner : Expr) : Expr :=
  applySigns level.signs <| match level.callee with
    | none => inner
    | some (function, arguments) => .call function (inner :: arguments).reverse

inductive State where
  | expecting (signs : List Sign) (chains : Chains) (outer : List Level)
  | named (text : String) (signs : List Sign) (chains : Chains) (outer : List Level)
  | called (function : String) (offset : Nat) (signs : List Sign) (chains : Chains)
      (outer : List Level)
  /-- An operand was read, with its signs. -/
  | holding (operand : Expr) (chains : Chains) (outer : List Level)
  deriving BEq, Repr

namespace State

def start : State := expecting [] .empty []

def startOperand (signs : List Sign) (chains : Chains) (outer : List Level) (t : Token) :
    Except SyntaxError State :=
  match t.kind with
  | .number value => .ok (holding (applySigns signs (.number value)) chains outer)
  | .name text => .ok (named text signs chains outer)
  | .symbol .plus => .ok (expecting (.plus :: signs) chains outer)
  | .symbol .minus => .ok (expecting (.minus :: signs) chains outer)
  | .symbol .opening => .ok (expecting [] .empty (⟨none, t.offset, signs, chains⟩ :: outer))
  | .symbol _ => .error ⟨.unexpectedToken t.text, t.offset⟩

def afterOperand (operand : Expr) (chains : Chains) (outer : List Level) (t : Token) :
    Except SyntaxError State :=
  -- An operator ends the chains that bind tighter, and its own chain grows to the left.
  let sum (sign : Sign) := expecting [] ⟨some (chains.close operand, sign), none, []⟩ outer
  let product (scaling : Scaling) :=
    expecting [] ⟨chains.sum, some (chains.closeProduct operand, scaling), []⟩ outer
  match t.kind, outer with
  | .symbol .plus, _ => .ok (sum .plus)
  | .symbol .minus, _ => .ok (sum .minus)
  | .symbol .star, _ => .ok (product .multiply)
  | .symbol .slash, _ => .ok (product .divide)
  | .symbol .caret, _ => .ok (expecting [] { chains with powers := operand :: chains.powers } outer)
  | .symbol .closing, [] => .error ⟨.unbalancedParenthesis, t.offset⟩
  | .symbol .closing, level :: rest =>
    .ok (holding (level.close (chains.close operand)) level.chains rest)
  | .symbol .comma, level :: rest =>
    match level.callee with
    | some (function, arguments) =>
      let callee := some (function, chains.close operand :: arguments)
      .ok (expecting [] .empty ({ level with callee := callee } :: rest))
    | none => .error ⟨.unexpectedToken t.text, t.offset⟩
  | _, _ => .error ⟨.unexpectedToken t.text, t.offset⟩

def step (state : State) (t : Token) : Except SyntaxError State :=
  match state with
  | expecting signs chains outer => startOperand signs chains outer t
  | named text signs chains outer =>
    if t.kind = .symbol .opening then .ok (called text t.offset signs chains outer)
    else afterOperand (applySigns signs (.name text)) chains outer t
  | called function offset signs chains outer =>
    -- Only a call without arguments may end here: no comma stands before its parenthesis.
    if t.kind = .symbol .closing then
      .ok (holding (applySigns signs (.call function [])) chains outer)
    else startOperand [] .empty (⟨some (function, []), offset, signs, chains⟩ :: outer) t
  | holding operand chains outer => afterOperand operand chains outer t

def finish (state : State) (length : Nat) : Except SyntaxError Expr :=
  let complete (operand : Expr) (chains : Chains) : List Level → Except SyntaxError Expr
    | [] => .ok (chains.close operand)
    | level :: _ => .error ⟨.unbalancedParenthesis, level.offset⟩
  match state with
  | expecting .. | called .. => .error ⟨.unexpectedEnd, length⟩
  | named text signs chains outer => complete (applySigns signs (.name text)) chains outer
  | holding operand chains outer => complete operand chains outer

end State

def parseTokens (tokens : List Token) (length : Nat) : Except SyntaxError Expr := do
  (← tokens.foldlM State.step .start).finish length

def parse (source : String) : Except SyntaxError Expr := do
  parseTokens (← Token.all source) source.utf8ByteSize

def isFormula (source : String) : Bool :=
  (parse source).isOk

end Parametric.Formula
