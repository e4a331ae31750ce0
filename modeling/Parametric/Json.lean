import Parametric.Number.Text
/-! JSON text, with each item on a line of its own. -/

set_option autoImplicit false

namespace Parametric.Json

inductive Value where
  | null
  | bool (b : Bool)
  | natural (n : Nat)
  | number (x : Float)
  | string (s : String)
  | list (items : List Value)
  /-- The names are expected to rise. -/
  | object (fields : List (String × Value))
  deriving BEq, Repr, Inhabited

def escaped (c : Char) : List Char :=
  if c = '"' then ['\\', '"']
  else if c = '\\' then ['\\', '\\']
  else if c = '\n' then ['\\', 'n']
  else if c = '\r' then ['\\', 'r']
  else if c = '\t' then ['\\', 't']
  else if c.toNat = 8 then ['\\', 'b']
  else if c.toNat = 12 then ['\\', 'f']
  else if c.toNat < 32 then
    ['\\', 'u', '0', '0', Nat.digitChar (c.toNat / 16), Nat.digitChar (c.toNat % 16)]
  else [c]

def quoted (s : String) : List Char :=
  '"' :: (s.toList.flatMap escaped ++ ['"'])

def block (depth : Nat) (opening closing : Char) (items : List (List Char)) : List Char :=
  if items.isEmpty then [opening, closing]
  else
    let line (depth : Nat) := '\n' :: List.replicate (2 * depth) ' '
    opening :: ([','].intercalate (items.map (line (depth + 1) ++ ·)) ++ line depth ++ [closing])

namespace Value

def option {α : Type} (encode : α → Value) : Option α → Value
  | none => null
  | some x => encode x

mutual

def chars (depth : Nat) : Value → List Char
  | null => "null".toList
  | bool b => (if b then "true" else "false").toList
  | natural n => (toString n).toList
  | number x => NumberForm.json.chars x
  | string s => quoted s
  | list items => block depth '[' ']' (charsOfItems (depth + 1) items)
  | object fields => block depth '{' '}' (charsOfFields (depth + 1) fields)

def charsOfItems (depth : Nat) : List Value → List (List Char)
  | [] => []
  | value :: rest => value.chars depth :: charsOfItems depth rest

def charsOfFields (depth : Nat) : List (String × Value) → List (List Char)
  | [] => []
  | (name, value) :: rest =>
    (quoted name ++ ':' :: ' ' :: value.chars depth) :: charsOfFields depth rest

end

def write (value : Value) : String :=
  String.ofList (value.chars 0)

end Value

end Parametric.Json
