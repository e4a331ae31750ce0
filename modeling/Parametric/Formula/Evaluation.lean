import Parametric.Formula.Parser
/-! The value of a formula.

A name stands for the value that the look-up gives it, else for a built-in
constant.
-/

set_option autoImplicit false

namespace Parametric.Formula

def pi : Float := 3.141592653589793

def constant? : String → Option Float
  | "PI" => some pi
  | "E" => some 2.718281828459045
  | "TAU" => some 6.283185307179586
  | _ => none

inductive Arity where
  | exactly (count : Nat)
  | atLeastOne
  deriving DecidableEq, Repr

def Arity.text : Arity → String
  | exactly count => toString count
  | atLeastOne => "at least 1"

inductive EvalError where
  | unknownIdentifier (name : String)
  | unknownFunction (name : String)
  | arity (function : String) (expected : Arity) (got : Nat)
  | divisionByZero
  | nonFinite (value : Float)
  deriving DecidableEq, Repr

def EvalError.message : EvalError → String
  | unknownIdentifier name => "Unknown identifier: " ++ name
  | unknownFunction name => "Unknown function: " ++ name
  | arity function expected got =>
    "Function " ++ function ++ " expects " ++ expected.text ++ " argument(s), got " ++ toString got
  | divisionByZero => "Division by zero"
  | nonFinite value => "Result is not a finite number: " ++ NumberForm.plain.write value

/-- The larger number; a NaN gives way, and of equal numbers the second stands. -/
def larger (x y : Float) : Float :=
  if y < x || y.isNaN then x else y

def smaller (x y : Float) : Float :=
  if x < y || y.isNaN then x else y

/-- At least `low`, then at most `high`, in this order when they conflict. -/
def clamp (x low high : Float) : Float :=
  smaller (larger x low) high

def degreesOfRadians (x : Float) : Float :=
  x * (180.0 / pi)

def radiansOfDegrees (x : Float) : Float :=
  x * (pi / 180.0)

inductive Builtin where
  | unary (f : Float → Float)
  | binary (f : Float → Float → Float)
  | ternary (f : Float → Float → Float → Float)
  | folded (f : Float → Float → Float)

def builtin? : String → Option Builtin
  | "abs" => some (.unary Float.abs)
  | "floor" => some (.unary Float.floor)
  | "ceil" => some (.unary Float.ceil)
  | "round" => some (.unary Float.round)
  | "sqrt" => some (.unary Float.sqrt)
  | "pow" => some (.binary Float.pow)
  | "exp" => some (.unary Float.exp)
  | "log" => some (.unary Float.log)
  | "log10" => some (.unary Float.log10)
  | "log2" => some (.unary Float.log2)
  | "sin" => some (.unary Float.sin)
  | "cos" => some (.unary Float.cos)
  | "tan" => some (.unary Float.tan)
  | "asin" => some (.unary Float.asin)
  | "acos" => some (.unary Float.acos)
  | "atan" => some (.unary Float.atan)
  | "atan2" => some (.binary Float.atan2)
  | "sinh" => some (.unary Float.sinh)
  | "cosh" => some (.unary Float.cosh)
  | "tanh" => some (.unary Float.tanh)
  | "min" => some (.folded smaller)
  | "max" => some (.folded larger)
  | "clamp" => some (.ternary clamp)
  | "deg" => some (.unary degreesOfRadians)
  | "rad" => some (.unary radiansOfDegrees)
  | _ => none

def Builtin.apply (builtin : Builtin) (name : String) (values : List Float) :
    Except EvalError Float :=
  match builtin, values with
  | .unary f, [x] => .ok (f x)
  | .unary _, _ => .error (.arity name (.exactly 1) values.length)
  | .binary f, [x, y] => .ok (f x y)
  | .binary _, _ => .error (.arity name (.exactly 2) values.length)
  | .ternary f, [x, y, z] => .ok (f x y z)
  | .ternary _, _ => .error (.arity name (.exactly 3) values.length)
  | .folded f, x :: rest => .ok (rest.foldl f x)
  | .folded _, [] => .error (.arity name .atLeastOne 0)

def applyOperator (op : Operator) (x y : Float) : Except EvalError Float :=
  match op with
  | .add => .ok (x + y)
  | .sub => .ok (x - y)
  | .mul => .ok (x * y)
  | .div => if y == 0.0 then .error .divisionByZero else .ok (x / y)
  | .pow => .ok (Float.pow x y)

mutual

/-- The value of an expression. Operands and arguments are evaluated from left to
right; an unknown function fails before its arguments. -/
def evalExpr (lookup : String → Option Float) : Expr → Except EvalError Float
  | .number value => .ok value
  | .name text => match lookup text <|> constant? text with
    | some value => .ok value
    | none => .error (.unknownIdentifier text)
  | .signed .plus operand => evalExpr lookup operand
  | .signed .minus operand => do return -(← evalExpr lookup operand)
  | .binary op left right => do
    let x ← evalExpr lookup left
    let y ← evalExpr lookup right
    applyOperator op x y
  | .call function arguments => match builtin? function with
    | none => .error (.unknownFunction function)
    | some builtin => do builtin.apply function (← evalAll lookup arguments)

def evalAll (lookup : String → Option Float) : List Expr → Except EvalError (List Float)
  | [] => .ok []
  | e :: rest => do
    let x ← evalExpr lookup e
    return x :: (← evalAll lookup rest)

end

inductive FormulaError where
  | malformed (error : SyntaxError)
  | evaluation (error : EvalError)
  deriving DecidableEq, Repr

def FormulaError.message : FormulaError → String
  | malformed error => "Syntax error: " ++ error.message
  | evaluation error => "Evaluation error: " ++ error.message

def evaluate (source : String) (lookup : String → Option Float) : Except FormulaError Float :=
  match parse source with
  | .error e => .error (.malformed e)
  | .ok expr => match evalExpr lookup expr with
    | .error e => .error (.evaluation e)
    | .ok value => if value.isFinite then .ok value else .error (.evaluation (.nonFinite value))

end Parametric.Formula
