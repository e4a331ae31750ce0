import Parametric.Number.Reading
import Parametric.Text.Blank
/-! The words of a command line.

A word that starts with a hyphen is an option and never a value, unless it is
the hyphen alone or comes after the word `--`. Options with a value have it as
the next word or after an equals sign.
-/

set_option autoImplicit false

namespace Parametric.CommandLine

inductive Command where
  | new (file : String) (force : Bool)
  | inspect (file : String) (json : Bool)
  /-- Of two values for one name the later counts. -/
  | eval (expression : String) (values : List (String × Float))
  | plan (file : String)
  deriving BEq, DecidableEq, Repr

structure Request where
  settings : Option String
  command : Command
  deriving BEq, DecidableEq, Repr

inductive Topic where
  | new
  | inspect
  | eval
  | plan
  deriving DecidableEq, Repr

namespace Topic

def all : List Topic := [new, inspect, eval, plan]

def name : Topic → String
  | new => "new"
  | inspect => "inspect"
  | eval => "eval"
  | plan => "plan"

def switch? : Topic → Option String
  | new => some "--force"
  | inspect => some "--json"
  | eval | plan => none

def ofName? (name : String) : Option Topic :=
  all.find? (·.name = name)

end Topic

inductive Subject where
  | program
  | command (topic : Topic)
  | help
  deriving DecidableEq, Repr

inductive UsageError where
  | help (subject : Subject)
  | malformed
  deriving DecidableEq, Repr

def binding? (text : String) : Option (String × Float) :=
  let cs := text.toList
  match cs.dropWhile (· ≠ '=') with
  | [] => none
  | _ :: value => (readNumber (Text.trim (String.ofList value))).map
      (Text.trim (String.ofList (cs.takeWhile (· ≠ '='))), ·)

structure Parts where
  settings : Option String
  switched : Bool
  values : List (String × Float)
  positional : List String
  deriving DecidableEq, Repr

namespace Parts

def empty : Parts := ⟨none, false, [], []⟩

def takesValue (topic : Topic) (option : String) : Bool :=
  option = "--config" || (option = "--var" && topic = .eval)

def set? (parts : Parts) (option value : String) : Option Parts :=
  if option = "--config" then
    if parts.settings.isSome || value = "" then none else some { parts with settings := some value }
  else (binding? value).map fun b => { parts with values := parts.values ++ [b] }

def addPositional? (parts : Parts) (topic : Topic) (word : String) : Option Parts :=
  if parts.positional.isEmpty && (word ≠ "" || topic = .eval) then
    some { parts with positional := [word] }
  else none

end Parts

def isOption (word : String) : Bool :=
  word.startsWith "-" && word ≠ "-"

def isHelp (word : String) : Bool :=
  word = "--help" || word.startsWith "-h"

def splitOption (word : String) : String × Option String :=
  let cs := word.toList
  match cs.dropWhile (· ≠ '=') with
  | [] => (word, none)
  | _ :: value => (String.ofList (cs.takeWhile (· ≠ '=')), some (String.ofList value))

/-- Read the words of a command; `literal` tells that `--` has come. -/
def readParts (topic : Topic) (literal : Bool) (parts : Parts) :
    List String → Except UsageError Parts
  | [] => .ok parts
  | word :: rest =>
    if !literal && word = "--" then readParts topic true parts rest
    else if literal || !isOption word then
      match parts.addPositional? topic word with
      | some parts => readParts topic literal parts rest
      | none => .error .malformed
    else if isHelp word then .error (.help (.command topic))
    else if topic.switch? = some word then
      if parts.switched then .error .malformed
      else readParts topic literal { parts with switched := true } rest
    else
      let (option, value) := splitOption word
      if !Parts.takesValue topic option then .error .malformed
      else match value with
        | some value => match parts.set? option value with
          | some parts => readParts topic literal parts rest
          | none => .error .malformed
        | none => match rest with
          | [] => .error .malformed
          | value :: rest =>
            -- An option that waits for its value does not take another option for it.
            match if isOption value then none else parts.set? option value with
            | some parts => readParts topic literal parts rest
            | none => .error .malformed

def commandOf? (topic : Topic) (parts : Parts) : Option Command :=
  match topic, parts.positional with
  | .new, [file] => some (.new file parts.switched)
  | .inspect, [file] => some (.inspect file parts.switched)
  | .eval, [expression] => some (.eval expression parts.values)
  | .plan, [file] => some (.plan file)
  | _, _ => none

def readCommand (topic : Topic) (settings : Option String) (words : List String) :
    Except UsageError Request := do
  let parts ← readParts topic false .empty words
  match commandOf? topic parts with
  | some command => return ⟨parts.settings <|> settings, command⟩
  | none => .error .malformed

def readHelp : List String → UsageError
  | [] => .help .program
  | ["help"] => .help .help
  | [name] => match Topic.ofName? name with
    | some topic => .help (.command topic)
    | none => .malformed
  | _ => .malformed

/-- Read the words of the command line. `settings` is the path that was named last; if it is
`refused`, that counts when another option follows or when the words are at their end,
so help about a command still comes first. -/
def readWords (settings : Option String) (refused : Bool) :
    List String → Except UsageError Request
  | [] => .error .malformed
  | word :: rest =>
    if word = "help" then .error (readHelp rest)
    else match Topic.ofName? word with
      | some topic => do
        let request ← readCommand topic settings rest
        if refused then .error .malformed else .ok request
      | none =>
        if refused then .error .malformed
        else if isHelp word then .error (.help .program)
        else match splitOption word with
          | ("--config", some path) =>
            if settings.isSome || path = "" then .error .malformed
            else readWords (some path) false rest
          | ("--config", none) => match rest with
            | [] => .error .malformed
            | path :: rest =>
              if isOption path then .error .malformed
              else readWords (some path) (settings.isSome || path = "") rest
          | _ => .error .malformed

def Request.ofWords (words : List String) : Except UsageError Request :=
  readWords none false words

end Parametric.CommandLine
