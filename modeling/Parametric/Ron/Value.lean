import Parametric.Number.Text
import Parametric.Text.Unprintable
/-! Values of RON and their text.

The compact layout has no blanks. The spread layout gives each item of a list
and each field of a record a line of its own, four blanks deeper than what it
belongs to, with a comma behind it.
-/

set_option autoImplicit false

namespace Parametric.Ron

inductive Value where
  | float (x : Float)
  | natural (n : Nat)
  | bool (b : Bool)
  | string (text : String)
  | choice (name : String)
  | absent
  | present (value : Value)
  | list (items : List Value)
  | tuple (items : List Value)
  | record (kind : Option String) (fields : List (String × Value))
  deriving BEq, Repr, Inhabited

namespace Value

def option {α : Type} (encode : α → Value) : Option α → Value
  | none => absent
  | some x => present (encode x)

def pair (first second : Value) : Value :=
  tuple [first, second]

end Value

structure Layout where
  line : Nat → List Char
  gap : List Char
  final : List Char

namespace Layout

def compact : Layout := ⟨fun _ => [], [], []⟩

def spread : Layout := ⟨fun depth => '\n' :: List.replicate (4 * depth) ' ', [' '], [',']⟩

def block (layout : Layout) (depth : Nat) (opening closing : Char) (items : List (List Char)) :
    List Char :=
  if items.isEmpty then [opening, closing]
  else
    let lines := items.map (layout.line (depth + 1) ++ ·)
    opening :: ([','].intercalate lines ++ layout.final ++ layout.line depth ++ [closing])

end Layout

def escaped (c : Char) : List Char :=
  match c with
  | '\t' => ['\\', 't']
  | '\n' => ['\\', 'n']
  | '\r' => ['\\', 'r']
  | '\'' => ['\\', '\'']
  | '"' => ['\\', '"']
  | '\\' => ['\\', '\\']
  | _ =>
    if c.toNat = 0 then ['\\', '0']
    else if Text.isUnprintable c then '\\' :: 'u' :: '{' :: (Nat.toDigits 16 c.toNat ++ ['}'])
    else [c]

def quoted (s : String) : List Char :=
  '"' :: (s.toList.flatMap escaped ++ ['"'])

namespace Value

mutual

def chars (layout : Layout) (depth : Nat) : Value → List Char
  | float x => NumberForm.saved.chars x
  | natural n => Nat.toDigits 10 n
  | bool b => (if b then "true" else "false").toList
  | string text => quoted text
  | choice name => name.toList
  | absent => "None".toList
  | present value => "Some(".toList ++ value.chars layout depth ++ [')']
  | list items => layout.block depth '[' ']' (charsOfItems layout (depth + 1) items)
  | tuple items =>
    '(' :: ((',' :: layout.gap).intercalate (charsOfItems layout depth items) ++ [')'])
  | record kind fields =>
    (kind.getD "").toList ++ layout.block depth '(' ')' (charsOfFields layout (depth + 1) fields)

def charsOfItems (layout : Layout) (depth : Nat) : List Value → List (List Char)
  | [] => []
  | value :: rest => value.chars layout depth :: charsOfItems layout depth rest

def charsOfFields (layout : Layout) (depth : Nat) : List (String × Value) → List (List Char)
  | [] => []
  | (name, value) :: rest =>
    (name.toList ++ ':' :: (layout.gap ++ value.chars layout depth)) ::
      charsOfFields layout depth rest

end

def write (layout : Layout) (value : Value) : String :=
  String.ofList (value.chars layout 0)

end Value

end Parametric.Ron
