import Parametric.CommandLine.Arguments
import Parametric.CommandLine.Listing
import Parametric.Saved.File
import Parametric.Settings
/-! What the commands do.

A command reads at most the settings and one document. It prints a text, stores
a file, or fails; the settings are looked at first.
-/

set_option autoImplicit false

namespace Parametric.CommandLine

inductive Failure where
  | unreadableSettings (path : String)
  | malformedSettings (path : String)
  | unreadable (path : String)
  | malformed (path : String) (error : FileError)
  | present (path : String)
  | unwritable (path : String)
  | noValue (expression : String) (error : Formula.FormulaError)
  deriving DecidableEq, Repr

namespace Failure

def message : Failure → String
  | unreadableSettings path => "Failed to read config " ++ path
  | malformedSettings path => "Invalid config " ++ path
  | unreadable path => "Failed to read " ++ path
  | malformed path _ => "Failed to load " ++ path
  | present path => path ++ " already exists (use --force to overwrite)"
  | unwritable path => "Failed to write " ++ path
  | noValue expression _ => "Failed to evaluate '" ++ expression ++ "'"

/-- What led to the failure, the nearest cause first. -/
def causes : Failure → List String
  | malformed _ error => [error.message]
  | noValue _ error => [error.message, match error with
    | .malformed inner => inner.message
    | .evaluation inner => inner.message]
  | _ => []

def text (failure : Failure) : String :=
  let single := failure.causes.length = 1
  let line (place : Nat) (cause : String) :=
    if single then "    " ++ cause else "    " ++ toString place ++ ": " ++ cause
  "Error: " ++ failure.message ++
    if failure.causes.isEmpty then ""
    else "\n\nCaused by:\n" ++ "\n".intercalate (failure.causes.mapIdx line)

end Failure

structure Files where
  contents? : String → Option ByteArray
  isPresent : String → Bool

inductive Outcome where
  | printed (output : String)
  | stored (path contents output : String)
  deriving DecidableEq, Repr

def loadSettings (files : Files) : Option String → Except Failure Settings
  | none => .ok .standard
  | some path => match (files.contents? path).bind String.fromUTF8? with
    | none => .error (.unreadableSettings path)
    | some text => match Settings.ofText? text with
      | none => .error (.malformedSettings path)
      | some settings => .ok settings

def loadDocument (files : Files) (path : String) (fresh : StudioId) : Except Failure Document :=
  match files.contents? path with
  | none => .error (.unreadable path)
  | some bytes => match SavedDocument.ofFile bytes with
    | .error e => .error (.malformed path e)
    | .ok saved => .ok (saved.restore fresh)

def lastBinding? (values : List (String × Float)) (name : String) : Option Float :=
  (values.reverse.find? (·.1 = name)).map (·.2)

namespace Command

def run (command : Command) (files : Files) (fresh : StudioId) : Except Failure Outcome :=
  match command with
  | new path force =>
    if files.isPresent path && !force then .error (.present path)
    else .ok (.stored path (Document.new fresh).fileText ("Created " ++ path ++ "\n"))
  | inspect path json => do
    let d ← loadDocument files path fresh
    return .printed (if json then jsonListing d else listing d)
  | eval expression values => match Formula.evaluate expression (lastBinding? values) with
    | .ok x => .ok (.printed (NumberForm.plain.write x ++ "\n"))
    | .error e => .error (.noValue expression e)
  | plan path => do return .printed (planListing (← loadDocument files path fresh))

end Command

def Request.run (request : Request) (files : Files) (fresh : StudioId) :
    Except Failure Outcome := do
  let _ ← loadSettings files request.settings
  request.command.run files fresh

def Request.paths (request : Request) : List String :=
  request.settings.toList ++ match request.command with
    | .new path _ | .inspect path _ | .plan path => [path]
    | .eval .. => []

end Parametric.CommandLine
