import Parametric.Feature.Rebuild
import Parametric.History
import Parametric.Selection
import Parametric.Settings
import Parametric.Document
/-! Editing a document with undo.

Every command that changes the document records one snapshot. A command that
fails, or leaves the document as it is, records nothing. The selection is no
part of the history. The time of a change and the identifiers of what is made
are supplied.
-/

set_option autoImplicit false

namespace Parametric

structure Session where
  history : History Document
  selection : Selection
  settings : Settings

inductive SessionError where
  | parameter (error : ParameterEditError)
  | dimension (error : SyntaxError)
  | sketch (error : SketchError)
  | unknownStudio (id : StudioId)
  | unknownSketch (id : SketchId)
  deriving DecidableEq, Repr

def SessionError.message : SessionError → String
  | parameter error => "Parameter error: " ++ error.message
  | dimension error => "Dimension error: " ++ error.message
  | sketch error => "Sketch error: " ++ error.message
  | unknownStudio id => "Part studio not found: " ++ id.text
  | unknownSketch id => "Sketch not found: " ++ id.text

namespace Session

variable {α : Type}

def start (document : Document) (settings : Settings) : Session :=
  ⟨(History.start document).withLimit settings.historyLimit, .empty, settings⟩

def document (s : Session) : Document :=
  s.history.present

/-- Note the time in the studios that differ from what they were. -/
def stamp (now : Timestamp) (before after : Document) : Document :=
  after.mapStudios fun studio =>
    if before.studio? studio.id == some studio then studio else studio.touch now

/-- Record the outcome of an edit, unless it equals the present document. Numbers are
compared as numbers, so a document that holds a NaN differs from itself. -/
def record (s : Session) (now : Timestamp) (next : Document) : Session :=
  if next == s.document then s
  else { s with history := s.history.push (stamp now s.document next) }

def commit (s : Session) (now : Timestamp)
    (edit : Document → Except SessionError (α × Document)) : Except SessionError (α × Session) := do
  let (answer, next) ← edit s.document
  return (answer, s.record now next)

def commitStudio (s : Session) (now : Timestamp) (id : StudioId)
    (edit : Studio → Except SessionError (α × Studio)) : Except SessionError (α × Session) :=
  s.commit now fun d => match d.studio? id with
    | none => .error (.unknownStudio id)
    | some studio => do
      let (answer, studio) ← edit studio
      return (answer, d.setStudio id studio)

def changeStudio (s : Session) (now : Timestamp) (id : StudioId) (change : Studio → Studio) :
    Except SessionError Session :=
  (s.commitStudio now id fun studio => .ok ((), change studio)).map (·.2)

/-- Edit one studio and tell whether the edit applied. -/
def tryStudio (s : Session) (now : Timestamp) (id : StudioId) (change? : Studio → Option Studio) :
    Except SessionError (Bool × Session) :=
  s.commitStudio now id fun studio => match change? studio with
    | some changed => .ok (true, changed)
    | none => .ok (false, studio)

def changeParameters (s : Session) (now : Timestamp)
    (change : Parameters → Except ParameterEditError Parameters) : Except SessionError Session :=
  (s.commit now fun d => match change d.params with
    | .ok params => .ok ((), { d with params })
    | .error e => .error (.parameter e)).map (·.2)

def prune (s : Session) : Session :=
  { s with selection := s.selection.filter s.document.hasOp }

def undo? (s : Session) : Option Session :=
  if s.history.canUndo then some (prune { s with history := s.history.undo }) else none

def redo? (s : Session) : Option Session :=
  if s.history.canRedo then some (prune { s with history := s.history.redo }) else none

def enterDimension (s : Session) (input : String) : Except SessionError Dimension :=
  match Dimension.enter default input s.document.params with
  | .ok d => .ok d
  | .error e => .error (.dimension e)

def addParameter (s : Session) (now : Timestamp) (fresh : ParameterId) (name expression : String) :
    Except SessionError Session :=
  s.changeParameters now fun params => params.add fresh name expression s.settings.defaultUnit

def setExpression (s : Session) (now : Timestamp) (id : ParameterId) (expression : String) :
    Except SessionError Session :=
  s.changeParameters now fun params => params.setExpression id expression

def renameParameter (s : Session) (now : Timestamp) (id : ParameterId) (name : String)
    (takes : String → Bool := Formula.anyWord) : Except SessionError Session :=
  (s.commit now fun d => match d.renameParameter id name takes with
    | .ok renamed => .ok ((), renamed)
    | .error e => .error (.parameter e)).map (·.2)

def removeParameter (s : Session) (now : Timestamp) (id : ParameterId) :
    Except SessionError Session :=
  s.changeParameters now fun params => params.remove id

def addStudio (s : Session) (now : Timestamp) (fresh : StudioId) : Except SessionError Session :=
  (s.commit now fun d => .ok ((), d.addStudio fresh d.nextStudioName)).map (·.2)

def removeStudio (s : Session) (now : Timestamp) (id : StudioId) :
    Except SessionError (Bool × Session) :=
  s.commit now fun d => match d.removeStudio? id with
    | some (_, smaller) => .ok (true, smaller)
    | none => .ok (false, d)

/-- Add a sketch feature, on the plane of the settings if none is given. -/
def createSketch (s : Session) (now : Timestamp) (studio : StudioId) (freshSketch : SketchId)
    (fresh : OpId) (plane : Option PlaneId) : Except SessionError Session :=
  s.changeStudio now studio fun t =>
    t.addSketch freshSketch fresh (t.nextName "Sketch")
      (some (plane.getD s.settings.defaultPlane.id))

def createExtrude (s : Session) (now : Timestamp) (studio : StudioId) (fresh : OpId)
    (profile : Profile) (direction : ExtrudeDirection) (depth : String) :
    Except SessionError Session := do
  let depth ← s.enterDimension depth
  s.changeStudio now studio fun t =>
    t.addExtrude fresh (t.nextName "Extrude") profile direction depth

def createRevolve (s : Session) (now : Timestamp) (studio : StudioId) (fresh : OpId)
    (profile : Profile) (choice : AxisChoice) (angle : String) : Except SessionError Session := do
  let angle ← s.enterDimension angle
  s.changeStudio now studio fun t => t.addRevolve fresh (t.nextName "Revolve") profile choice angle

def createFillet (s : Session) (now : Timestamp) (studio : StudioId) (fresh : OpId)
    (target : OpId) (edges : List Nat) (radius : String) : Except SessionError Session := do
  let radius ← s.enterDimension radius
  s.changeStudio now studio fun t => t.addFillet fresh (t.nextName "Fillet") target edges radius

def createBoolean (s : Session) (now : Timestamp) (studio : StudioId) (fresh : OpId)
    (operation : BooleanOperation) (target tool : OpId) : Except SessionError Session :=
  s.changeStudio now studio fun t =>
    t.addBoolean fresh (t.nextName "Boolean") operation target tool

def deleteOp (s : Session) (now : Timestamp) (studio : StudioId) (op : OpId) :
    Except SessionError (Bool × Session) := do
  let (deleted, s) ← s.tryStudio now studio fun t => (t.delete? op).map (·.2)
  return (deleted, if deleted then { s with selection := s.selection.deselect op } else s)

def setSuppressed (s : Session) (now : Timestamp) (studio : StudioId) (op : OpId)
    (suppressed : Bool) : Except SessionError (Bool × Session) :=
  s.tryStudio now studio fun t => t.setSuppressed? op suppressed

def setDimension (s : Session) (now : Timestamp) (studio : StudioId) (op : OpId) (index : Nat)
    (input : String) : Except SessionError (Bool × Session) := do
  let d ← s.enterDimension input
  s.tryStudio now studio fun t =>
    if ((t.op? op).any fun o => index < o.feature.dimensions.length) then
      t.update? op fun o => o.mapDimensions fun i old => if i = index then d else old
    else none

def renameOp (s : Session) (now : Timestamp) (studio : StudioId) (op : OpId) (name : String) :
    Except SessionError (Bool × Session) :=
  s.tryStudio now studio fun t => t.update? op fun o => { o with name }

def setCutoff (s : Session) (now : Timestamp) (studio : StudioId) (position : Option Nat) :
    Except SessionError Session :=
  s.changeStudio now studio (·.setCutoff position)

def rollbackTo (s : Session) (now : Timestamp) (studio : StudioId) (op : OpId) :
    Except SessionError (Bool × Session) :=
  s.tryStudio now studio (·.rollbackTo? op)

def editSketch (s : Session) (now : Timestamp) (studio : StudioId) (sketch : SketchId)
    (edit : Sketch → Except SketchError (α × Sketch)) : Except SessionError (α × Session) :=
  s.commitStudio now studio fun t => match t.sketches.get? sketch with
    | none => .error (.unknownSketch sketch)
    | some present => match edit present with
      | .error e => .error (.sketch e)
      | .ok (answer, edited) => .ok (answer, { t with sketches := t.sketches.insert sketch edited })

def rebuild {σ : Type} (s : Session) (studio : StudioId) (kernel : Kernel σ) :
    Except SessionError (StateM σ RebuildReport) :=
  match s.document.plan? studio with
  | none => .error (.unknownStudio studio)
  | some plan => .ok (Parametric.rebuild kernel plan)

end Session

end Parametric
