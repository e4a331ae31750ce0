import Parametric.Formula.Rename
import Parametric.Parameters.Basic
/-! Edits of the parameters.

A rejected edit gives its reason and no parameters; an accepted one evaluates
all formulas again. Identifiers of new parameters are supplied.
-/

set_option autoImplicit false

namespace Parametric

inductive ParameterEditError where
  | invalidName (name : String)
  | duplicateName (name : String)
  | notFound (id : ParameterId)
  | malformed (error : SyntaxError)
  deriving DecidableEq, Repr

def ParameterEditError.message : ParameterEditError → String
  | invalidName name => "Invalid parameter name: '" ++ name ++ "'"
  | duplicateName name => "A parameter named '" ++ name ++ "' already exists"
  | notFound id => "Parameter not found: " ++ id.text
  | malformed error => error.message

namespace Parameters

/-- A name is free if it is well formed and no parameter but `except` has it. -/
def checkName (params : Parameters) (name : String) (except : Option ParameterId) :
    Except ParameterEditError Unit :=
  if !Token.isName name then .error (.invalidName name)
  else if params.list.any fun p => p.name = name && some p.id ≠ except then
    .error (.duplicateName name)
  else .ok ()

def checkFormula (expression : String) : Except ParameterEditError Unit :=
  match Formula.parse expression with
  | .ok _ => .ok ()
  | .error e => .error (.malformed e)

def checkPresent (params : Parameters) (id : ParameterId) : Except ParameterEditError Unit :=
  if (params.get? id).isSome then .ok () else .error (.notFound id)

def changeFirst (id : ParameterId) (change : Parameter → Parameter) :
    List Parameter → List Parameter
  | [] => []
  | p :: rest => if p.id = id then change p :: rest else p :: changeFirst id change rest

def add (params : Parameters) (fresh : ParameterId) (name expression : String)
    (unit : Option String) : Except ParameterEditError Parameters := do
  params.checkName name none
  checkFormula expression
  return ofList (params.list ++ [⟨fresh, name, expression, 0.0, unit⟩])

def setExpression (params : Parameters) (id : ParameterId) (expression : String) :
    Except ParameterEditError Parameters := do
  params.checkPresent id
  checkFormula expression
  return ofList (changeFirst id (fun p => { p with expression }) params.list)

def renameFirst (id : ParameterId) (old fresh : String) (takes : String → Bool) :
    List Parameter → List Parameter
  | [] => []
  | p :: rest =>
    if p.id = id then { p with name := fresh } :: rest.map (inFormula ·)
    else inFormula p :: renameFirst id old fresh takes rest
where
  inFormula (p : Parameter) : Parameter :=
    { p with expression := Formula.rename p.expression old fresh takes }

/-- Rename a parameter, also in the formulas of all others. -/
def rename (params : Parameters) (id : ParameterId) (name : String)
    (takes : String → Bool := Formula.anyWord) : Except ParameterEditError Parameters := do
  match params.get? id with
  | none => .error (.notFound id)
  | some p =>
    params.checkName name (some id)
    return ofList (renameFirst id p.name name takes params.list)

def setUnit (params : Parameters) (id : ParameterId) (unit : Option String) :
    Except ParameterEditError Parameters := do
  params.checkPresent id
  return ofList (changeFirst id (fun p => { p with unit }) params.list)

/-- Remove a parameter. Formulas that mention it fail from then on. -/
def remove (params : Parameters) (id : ParameterId) : Except ParameterEditError Parameters := do
  params.checkPresent id
  return ofList (params.list.eraseP (·.id = id))

end Parameters

end Parametric
