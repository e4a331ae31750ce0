import Parametric.Formula.Evaluation
import Parametric.Identifier
import Parametric.Parameters.Dependents
import Parametric.Parameters.Search
/-! Named parameters, each with a formula over the others, and their evaluation.

A parameter keeps its last good value. When its formula fails, the failure is
recorded and the parameters that use it see zero.
-/

set_option autoImplicit false

namespace Parametric

structure Parameter where
  id : ParameterId
  name : String
  expression : String
  /-- The last value that was evaluated without failure. -/
  value : Float
  unit : Option String
  deriving BEq, DecidableEq, Repr

inductive ParameterError where
  | formula (error : Formula.FormulaError)
  | cycle (path : List String)
  deriving DecidableEq, Repr

def ParameterError.message : ParameterError → String
  | formula error => error.message
  | cycle path => "Circular dependency: " ++ cycleText path

structure Parameters where
  list : List Parameter
  errors : SortedMap ParameterId ParameterError
  deriving BEq, DecidableEq

namespace Parameters

/-- The dependencies between parameters. A formula that does not parse depends on nothing,
and names that are no parameters are left out. -/
def graph (list : List Parameter) : DependencyGraph :=
  let names := list.map (·.name)
  SortedMap.ofList <| list.map fun p =>
    (p.name, match Formula.parse p.expression with
      | .ok expr => expr.identifiers.filter (· ∈ names)
      | .error _ => [])

/-- The value that a list of bindings gives a name; the first binding counts. -/
def binding? (values : List (String × Float)) (name : String) : Option Float :=
  (values.find? (·.1 = name)).map (·.2)

def lastNamed? (list : List Parameter) (name : String) : Option Parameter :=
  (list.filter (·.name = name)).getLast?

def setLastNamed (name : String) (value : Float) : List Parameter → List Parameter
  | [] => []
  | p :: rest =>
    -- Names are distinct after any edit, but a file may list one twice.
    if p.name = name ∧ ¬ rest.any (·.name = name) then { p with value } :: rest
    else p :: setLastNamed name value rest

structure Pass where
  params : Parameters
  values : List (String × Float)

namespace Pass

/-- Evaluate the formula of one name. A failure is recorded, and the name counts as zero. -/
def evaluateName (pass : Pass) (name : String) : Pass :=
  match lastNamed? pass.params.list name with
  | none => pass
  | some p => match Formula.evaluate p.expression (binding? pass.values) with
    | .ok value =>
      ⟨{ pass.params with list := setLastNamed name value pass.params.list },
        (name, value) :: pass.values⟩
    | .error e =>
      ⟨{ pass.params with errors := pass.params.errors.insert p.id (.formula e) },
        (name, 0.0) :: pass.values⟩

end Pass

/-- Evaluate each formula after those it depends on. On a cycle nothing is evaluated, and
the parameters on the cycle record it. -/
def ofList (list : List Parameter) : Parameters :=
  match (graph list).schedule with
  | .ok order => (order.foldl Pass.evaluateName ⟨⟨list, .empty⟩, []⟩).params
  | .error path =>
    ⟨list, SortedMap.ofList ((list.filter (·.name ∈ path)).map fun p => (p.id, .cycle path))⟩

def empty : Parameters := ⟨[], .empty⟩

instance : Inhabited Parameters := ⟨empty⟩

def evaluate (params : Parameters) : Parameters :=
  ofList params.list

def get? (params : Parameters) (id : ParameterId) : Option Parameter :=
  params.list.find? (·.id = id)

def named? (params : Parameters) (name : String) : Option Parameter :=
  params.list.find? (·.name = name)

def lookup (params : Parameters) (name : String) : Option Float :=
  (lastNamed? params.list name).map (·.value)

def error? (params : Parameters) (id : ParameterId) : Option ParameterError :=
  params.errors.get? id

def dependents (params : Parameters) (name : String) : List String :=
  (graph params.list).dependents name

end Parameters

end Parametric
