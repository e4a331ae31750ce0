import Parametric.Parameters.Edit
/-! Dimensions: numbers in a feature that may follow a parameter or a formula. -/

set_option autoImplicit false

namespace Parametric

structure Dimension where
  value : Float
  expression : Option String
  parameter : Option ParameterId
  deriving BEq, DecidableEq, Repr

namespace Dimension

def literal (value : Float) : Dimension :=
  ⟨value, none, none⟩

instance : Inhabited Dimension := ⟨literal 0.0⟩

def source? (d : Dimension) (params : Parameters) : Option Parameter :=
  d.parameter.bind params.get?

/-- The number a dimension stands for. A formula that fails leaves the stored number. -/
def resolve (d : Dimension) (params : Parameters) : Float :=
  match d.source? params, d.expression with
  | some p, _ => p.value
  | none, none => d.value
  | none, some expression => match Formula.evaluate expression params.lookup with
    | .ok value => value
    | .error _ => d.value

def sourceText (d : Dimension) (params : Parameters) : String :=
  match d.source? params, d.expression with
  | some p, _ => p.name
  | none, some expression => expression
  | none, none => NumberForm.plain.write d.value

/-- The dimension that a text enters: a finite number is a literal, the exact name of a
parameter follows it, and any other formula is kept and evaluated, with the value of `d`
in place of a failure. -/
def enter (d : Dimension) (input : String) (params : Parameters) : Except SyntaxError Dimension :=
  let input := Text.trim input
  match (readNumber input).filter Float.isFinite, params.named? input with
  | some value, _ => .ok (literal value)
  | none, some p => .ok ⟨p.value, none, some p.id⟩
  | none, none => do
    let _ ← Formula.parse input
    let value := match Formula.evaluate input params.lookup with
      | .ok value => value
      | .error _ => d.value
    return ⟨value, some input, none⟩

def rename (d : Dimension) (old fresh : String)
    (takes : String → Bool := Formula.anyWord) : Dimension :=
  { d with expression := d.expression.map fun e => Formula.rename e old fresh takes }

end Dimension

end Parametric
