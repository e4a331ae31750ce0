import Parametric.Number.Text
import Parametric.SortedMap
/-! Arithmetic expressions over named values, and their text.

The text has parentheses only where the tree would otherwise be read back
differently.
-/

set_option autoImplicit false

namespace Parametric

inductive Sign where
  | plus
  | minus
  deriving DecidableEq, Repr

inductive Operator where
  | add
  | sub
  | mul
  | div
  | pow
  deriving DecidableEq, Repr

inductive Expr where
  | number (value : Float)
  | name (text : String)
  | signed (sign : Sign) (operand : Expr)
  | binary (operator : Operator) (left right : Expr)
  | call (function : String) (arguments : List Expr)
  deriving BEq, Repr, Inhabited

def Sign.char : Sign → Char
  | plus => '+'
  | minus => '-'

namespace Operator

def char : Operator → Char
  | add => '+'
  | sub => '-'
  | mul => '*'
  | div => '/'
  | pow => '^'

def strength : Operator → Nat
  | add | sub => 1
  | mul | div => 2
  | pow => 3

/-- Operators of equal strength group to the right. -/
def groupsRight : Operator → Bool
  | pow => true
  | _ => false

end Operator

namespace Expr

def strength : Expr → Nat
  | binary op _ _ => op.strength
  | signed _ _ => 4
  | number _ | name _ | call _ _ => 5

mutual

/-- The names an expression refers to, from left to right; function names are none. -/
def mentions : Expr → List String
  | number _ => []
  | name text => [text]
  | signed _ operand => operand.mentions
  | binary _ left right => left.mentions ++ right.mentions
  | call _ arguments => mentionsAll arguments

def mentionsAll : List Expr → List String
  | [] => []
  | e :: rest => e.mentions ++ mentionsAll rest

end

/-- The names an expression refers to, in increasing order, each once. -/
def identifiers (e : Expr) : List String :=
  (SortedMap.ofList (e.mentions.map (·, ()))).keys

def parenthesized (needed : Bool) (cs : List Char) : List Char :=
  if needed then '(' :: cs ++ [')'] else cs

mutual

def chars : Expr → List Char
  | number value => NumberForm.plain.chars value
  | name text => text.toList
  | signed sign operand => sign.char :: parenthesized (operand.strength < 4) operand.chars
  | binary op left right =>
    let loose := if op.groupsRight then left.strength ≤ op.strength else left.strength < op.strength
    let looseRight :=
      if op.groupsRight then right.strength < op.strength else right.strength ≤ op.strength
    parenthesized loose left.chars ++ ' ' :: op.char :: ' ' :: parenthesized looseRight right.chars
  | call function arguments => function.toList ++ '(' :: charsAll arguments ++ [')']

def charsAll : List Expr → List Char
  | [] => []
  | [e] => e.chars
  | e :: rest => e.chars ++ ',' :: ' ' :: charsAll rest

end

def text (e : Expr) : String :=
  String.ofList e.chars

end Expr

end Parametric
