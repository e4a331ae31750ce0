import Parametric.Feature.Plan
/-! Building the features of a plan with a geometry kernel. -/

set_option autoImplicit false

namespace Parametric

/-- A shape that a kernel made, known by its handle only. -/
structure BuiltShape where
  handle : Nat
  deriving DecidableEq, Repr

inductive KernelError where
  | notAvailable (reason : String)
  | missingInput (op : OpId)
  | operationFailed (reason : String)
  deriving DecidableEq, Repr

def KernelError.message : KernelError → String
  | notAvailable reason => "Kernel not available: " ++ reason
  | missingInput op => "Missing input shape from op " ++ op.text
  | operationFailed reason => "Operation failed: " ++ reason

structure Kernel (σ : Type) where
  name : String
  available : Bool
  /-- Build one feature from the shapes of its inputs, in their order. -/
  build : PlannedOp → List BuiltShape → StateM σ (Except KernelError BuiltShape)

def Kernel.null : Kernel Unit where
  name := "null"
  available := false
  build _ _ := pure (.error (.notAvailable "No geometry kernel available"))

/-- What became of each feature of a plan, in order. -/
structure RebuildReport where
  results : List (OpId × Except KernelError BuiltShape)

namespace RebuildReport

/-- The shape of a feature, by its first entry. -/
def shape? (report : RebuildReport) (id : OpId) : Option BuiltShape :=
  (report.results.find? (·.1 = id)).bind fun e => e.2.toOption

def failures (report : RebuildReport) : List (OpId × KernelError) :=
  report.results.filterMap fun e => match e.2 with
    | .ok _ => none
    | .error error => some (e.1, error)

def isSuccess (report : RebuildReport) : Bool :=
  report.failures.isEmpty

end RebuildReport

def inputShapes (shapes : SortedMap OpId BuiltShape) (inputs : List OpId) :
    Except KernelError (List BuiltShape) :=
  inputs.mapM fun id => match shapes.get? id with
    | some shape => .ok shape
    | none => .error (.missingInput id)

/-- Build the features of a plan in order. A feature without all of its input shapes fails
before it reaches the kernel, and the plan goes on after a failure. -/
def buildAll {σ : Type} (kernel : Kernel σ) (shapes : SortedMap OpId BuiltShape) :
    List PlannedOp → StateM σ (List (OpId × Except KernelError BuiltShape))
  | [] => pure []
  | op :: rest => do
    let result ← match inputShapes shapes op.inputs with
      | .error e => pure (.error e)
      | .ok inputs => kernel.build op inputs
    let shapes := match result with
      | .ok shape => shapes.insert op.id shape
      | .error _ => shapes
    return (op.id, result) :: (← buildAll kernel shapes rest)

def rebuild {σ : Type} (kernel : Kernel σ) (plan : List PlannedOp) : StateM σ RebuildReport := do
  return ⟨← buildAll kernel .empty plan⟩

end Parametric
