import Parametric.Ron.Form
import Parametric.Ron.Lexeme
import Parametric.Ron.Value
/-! Reading a RON text by the form that is expected of it.

Nesting is limited: an optional value, a bracket, each part inside a bracket and
the choice among variants take one level each of those that are left. Values of
unknown fields are passed over, and they count in the same way.
-/

set_option autoImplicit false

namespace Parametric.Ron

structure Extensions where
  /-- A present optional value may be written bare. -/
  implicitSome : Bool
  deriving DecidableEq, Repr

namespace Extensions

def standard : Extensions := ⟨false⟩

/-- Add an extension by its name. Those about wrappers around one value change nothing,
since no such wrapper is ever stored. -/
def add? (extensions : Extensions) (name : String) : Option Extensions :=
  match name with
  | "implicit_some" => some ⟨true⟩
  | "unwrap_newtypes" | "unwrap_variant_newtypes" => some extensions
  | _ => none

end Extensions

/-- The deepest nesting that is read. -/
def levelLimit : Nat := 128

namespace Reader

variable {α : Type}

def next? : Reader (Option Char) :=
  return (← get).head?

/-- At most `fuel` parts up to a closing bracket, with a comma behind each but the last. -/
def parts (closing : Char) (part : Reader α) : Nat → Reader (List α)
  | 0 => failure
  | fuel + 1 => do
    if (← next?) = some closing then return []
    let x ← part
    if ← tookComma then return x :: (← parts closing part fuel)
    return [x]

/-- All parts between two brackets. The brackets take one of the levels that are left, and
a part another. -/
def bracketed (levels : Nat) (opening closing : Char) (part : Reader α) : Reader (List α) := do
  guard (0 < levels)
  take opening
  blanks
  let found ← parts closing (do guard (1 < levels); part) ((← get).length + 1)
  take closing
  return found

def sequence : List (Reader α) → Reader (List α)
  | [] => return []
  | [last] => do
    let x ← last
    let _ ← tookComma
    return [x]
  | first :: rest => do
    let x ← first
    guard (← tookComma)
    return x :: (← sequence rest)

def tuple (levels : Nat) (items : List (Reader α)) : Reader (List α) := do
  guard (1 < levels)
  take '('
  blanks
  let found ← sequence items
  take ')'
  return found

def optionalName (expected : String) : Reader Unit := do
  if (← next?).any continuesWord then guard ((← name) = expected)

def option (extensions : Extensions) (value : Reader α) : Reader (Option α) := do
  if ← took "None" then return none
  if ← took "Some" then
    blanks
    if ← took "(" then
      blanks
      let x ← value
      let _ ← tookComma
      take ')'
      return some x
  guard extensions.implicitSome
  return some (← value)

def entry (key value : Reader Unit) : Reader Unit := do
  key
  blanks
  take ':'
  blanks
  value

/-- Whether a name and a colon follow the opening bracket that comes next, so that it
opens a record. -/
def opensRecord : Reader Bool := fun cs => do
  let (_, inside) ← blanks (cs.drop 1)
  match name inside with
  | none => some (false, cs)
  | some (_, rest) =>
    let (_, rest) ← blanks rest
    some (rest.head? = some ':', cs)

/-- Pass over a value of any form: `inner` passes over the value in an optional one, and `part`
over what is inside a bracket. -/
def skipOf (extensions : Extensions) (levels : Nat) (inner part : Reader Unit) : Reader Unit := do
  let brackets (opening closing : Char) (part : Reader Unit) : Reader Unit := do
    let _ ← bracketed levels opening closing part
  let round : Reader Unit := do
    brackets '(' ')' (if ← opensRecord then entry (do let _ ← name) part else part)
  if ← tookWord ["true", "false", "None", "inf", "-inf", "NaN"] then return
  if ← took "()" then return
  if atWord "Some" (← get) then
    let _ ← option extensions inner
    return
  if (name (← get)).isSome then
    let _ ← name
    blanks
    if (← next?) = some '(' then round
    return
  match ← next? with
  | some '(' => round
  | some '[' => brackets '[' ']' part
  | some '{' => brackets '{' '}' (entry part part)
  | some '.' => do let _ ← float
  | some '"' | some 'r' => do let _ ← string
  | some '\'' => do let _ ← character
  | _ => anyNumber

def skip (extensions : Extensions) : Nat → Reader Unit
  | 0 => skipOf extensions 0 failure failure
  | 1 => skipOf extensions 1 (skip extensions 0) failure
  | inside + 2 =>
    skipOf extensions (inside + 2) (skip extensions (inside + 1)) (skip extensions inside)

/-- One field of a record; none if it is not asked for and so is passed over. -/
def field (forms : List (String × Form)) (value : Form → Reader Value) (other : Reader Unit) :
    Reader (Option (String × Value)) := do
  let key ← name
  blanks
  take ':'
  blanks
  match forms.lookup key with
  | some form => return some (key, ← value form)
  | none =>
    other
    return none

def fields (levels : Nat) (forms : List (String × Form)) (value : Form → Reader Value)
    (other : Reader Unit) : Reader (List (String × Value)) := do
  let found ← bracketed levels '(' ')' (field forms value other)
  let fields := found.filterMap id
  guard (fields.map (·.1)).Nodup
  return fields

/-- Read a value of a form: `inner` reads the value in an optional one, `part` what is inside
a bracket, and `variantPart` a field of a variant. -/
def valueOf (extensions : Extensions) (levels : Nat) (inner part variantPart : Form → Reader Value)
    (form : Form) : Reader Value :=
  match form with
  | .float => return .float (← float)
  | .natural width => return .natural (← natural width)
  | .bool => do
    if ← took "true" then return .bool true
    guard (← took "false")
    return .bool false
  | .string => return .string (← string)
  | .choice => do
    guard (2 ≤ levels)
    return .choice (← name)
  | .option form => do
    match ← option extensions (inner form) with
    | some v => return .present v
    | none => return .absent
  | .list form => return .list (← bracketed levels '[' ']' (part form))
  | .tuple kind items => do
    if let some kind := kind then optionalName kind
    return .tuple (← tuple levels (items.map part))
  | .record kind forms => do
    optionalName kind
    blanks
    return .record none (← fields levels forms part (skip extensions (levels - 2)))
  | .variants kinds => do
    guard (2 ≤ levels)
    let kind ← name
    blanks
    match kinds.lookup kind with
    | some forms =>
      let found ← fields (levels - 1) forms variantPart (skip extensions (levels - 3))
      return .record (some kind) found
    | none => failure

/-- Read a value of a form. A present optional value takes one level more than what is in it,
a bracket two and a variant three. -/
def value (extensions : Extensions) : Nat → Form → Reader Value
  | 0 => valueOf extensions 0 (fun _ => failure) (fun _ => failure) (fun _ => failure)
  | 1 => valueOf extensions 1 (value extensions 0) (fun _ => failure) (fun _ => failure)
  | 2 => valueOf extensions 2 (value extensions 1) (value extensions 0) (fun _ => failure)
  | inside + 3 =>
    valueOf extensions (inside + 3) (value extensions (inside + 2)) (value extensions (inside + 1))
      (value extensions inside)

def extensionNames (extensions : Extensions) : Nat → Reader Extensions
  | 0 => failure
  | fuel + 1 => do
    match extensions.add? (← name) with
    | none => failure
    | some extensions =>
      if (← tookComma) && (← next?).any continuesWord then extensionNames extensions fuel
      else return extensions

def attributes (extensions : Extensions) : Nat → Reader Extensions
  | 0 => failure
  | fuel + 1 => do
    if (← next?) ≠ some '#' then return extensions
    ["#", "!", "[", "enable", "("].forM fun text => do guard (← took text); blanks
    let extensions ← extensionNames extensions ((← get).length + 1)
    [")", "]"].forM fun text => do guard (← took text); blanks
    attributes extensions fuel

def text (form : Form) : Reader Value := do
  blanks
  let extensions ← attributes .standard ((← get).length + 1)
  let found ← value extensions levelLimit form
  blanks
  guard (← get).isEmpty
  return found

end Reader

def read? (form : Form) (source : String) : Option Value :=
  (Reader.text form source.toList).map (·.1)

end Parametric.Ron
