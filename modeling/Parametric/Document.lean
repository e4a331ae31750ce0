import Parametric.Feature.Plan
/-! Documents: part studios and the parameters that drive their dimensions. -/

set_option autoImplicit false

namespace Parametric

/-- A document has at least one studio. -/
structure Document where
  studios : List Studio
  params : Parameters
  nonempty : studios ≠ []

namespace Document

instance : BEq Document where
  beq a b := a.studios == b.studios && a.params == b.params

instance : DecidableEq Document := fun a b =>
  decidable_of_iff (a.studios = b.studios ∧ a.params = b.params) (by cases a; cases b; simp)

def firstStudioName : String := "Part Studio 1"

def new (fresh : StudioId) : Document :=
  ⟨[.new fresh firstStudioName], .empty, by simp⟩

def firstStudio (d : Document) : Studio :=
  d.studios.head d.nonempty

def studio? (d : Document) (id : StudioId) : Option Studio :=
  d.studios.find? (·.id = id)

def hasOp (d : Document) (id : OpId) : Bool :=
  d.studios.any (·.contains id)

def mapStudios (d : Document) (change : Studio → Studio) : Document :=
  { d with studios := d.studios.map change, nonempty := by simpa using d.nonempty }

def replaceFirst (id : StudioId) (studio : Studio) : List Studio → List Studio
  | [] => []
  | s :: rest => if s.id = id then studio :: rest else s :: replaceFirst id studio rest

theorem replaceFirst_ne_nil (id : StudioId) (studio : Studio) {studios : List Studio}
    (nonempty : studios ≠ []) : replaceFirst id studio studios ≠ [] := by
  cases studios with
  | nil => contradiction
  | cons s rest => simp only [replaceFirst]; split <;> simp

def setStudio (d : Document) (id : StudioId) (studio : Studio) : Document :=
  { d with
    studios := replaceFirst id studio d.studios
    nonempty := replaceFirst_ne_nil id studio d.nonempty }

def addStudio (d : Document) (fresh : StudioId) (name : String) : Document :=
  { d with studios := d.studios ++ [.new fresh name], nonempty := by simp }

def nextStudioName (d : Document) : String :=
  "Part Studio " ++ toString (d.studios.length + 1)

/-- Remove the first studio of an identifier. The last studio is never removed. -/
def removeStudio? (d : Document) (id : StudioId) : Option (Studio × Document) :=
  let rest := d.studios.eraseP (·.id = id)
  match d.studio? id with
  | none => none
  | some studio =>
    if nonempty : rest ≠ [] then some (studio, { d with studios := rest, nonempty }) else none

def renameParameter (d : Document) (id : ParameterId) (name : String)
    (takes : String → Bool := Formula.anyWord) : Except ParameterEditError Document :=
  match d.params.get? id with
  | none => .error (.notFound id)
  | some p => do
    let params ← d.params.rename id name takes
    return { d.mapStudios (·.renameParameter p.name name takes) with params }

def plan? (d : Document) (id : StudioId) : Option (List PlannedOp) :=
  (d.studio? id).map (·.plan d.params)

end Document

end Parametric
