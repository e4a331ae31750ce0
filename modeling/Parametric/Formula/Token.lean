import Parametric.Number.Reading
import Parametric.Text.Blank
/-! Tokens of a formula and the scanner that splits a text into them.

A numeral or name is the longest one at its place. White space separates tokens
and is dropped.
-/

set_option autoImplicit false

namespace Parametric

inductive Symbol where
  | plus
  | minus
  | star
  | slash
  | caret
  | opening
  | closing
  | comma
  deriving DecidableEq, Repr

namespace Symbol

def char : Symbol → Char
  | plus => '+'
  | minus => '-'
  | star => '*'
  | slash => '/'
  | caret => '^'
  | opening => '('
  | closing => ')'
  | comma => ','

def ofChar? : Char → Option Symbol
  | '+' => some plus
  | '-' => some minus
  | '*' => some star
  | '/' => some slash
  | '^' => some caret
  | '(' => some opening
  | ')' => some closing
  | ',' => some comma
  | _ => none

@[simp] theorem ofChar?_char (s : Symbol) : ofChar? s.char = some s := by
  cases s <;> rfl

end Symbol

inductive TokenKind where
  | number (value : Float)
  | name (text : String)
  | symbol (mark : Symbol)
  deriving DecidableEq, Repr

structure Token where
  kind : TokenKind
  offset : Nat
  text : String
  deriving DecidableEq, Repr

inductive SyntaxFault where
  | unexpectedCharacter (c : Char)
  | unexpectedToken (text : String)
  | unexpectedEnd
  /-- An opening parenthesis without its closing one, or the reverse. -/
  | unbalancedParenthesis
  | numberOutOfRange (text : String)
  deriving DecidableEq, Repr

structure SyntaxError where
  fault : SyntaxFault
  offset : Nat
  deriving DecidableEq, Repr

def SyntaxFault.message : SyntaxFault → String
  | unexpectedCharacter c => "Unexpected character '" ++ c.toString ++ "'"
  | unexpectedToken text => "Unexpected token '" ++ text ++ "'"
  | unexpectedEnd => "Unexpected end of input"
  | unbalancedParenthesis => "Unbalanced parenthesis"
  | numberOutOfRange text => "Number out of range '" ++ text ++ "'"

def SyntaxError.message (e : SyntaxError) : String :=
  e.fault.message ++ " at offset " ++ toString e.offset

namespace Token

def startsName (c : Char) : Bool :=
  c.isAlpha || c = '_'

def continuesName (c : Char) : Bool :=
  c.isAlphanum || c = '_'

def isName (s : String) : Bool :=
  match s.toList with
  | [] => false
  | c :: rest => startsName c && rest.all continuesName

def fractionPart : List Char → List Char
  | '.' :: rest => '.' :: rest.takeWhile Char.isDigit
  | _ => []

/-- The exponent at the front of a text; its mark counts only before digits. -/
def exponentPart : List Char → List Char
  | [] => []
  | mark :: rest =>
    if mark = 'e' || mark = 'E' then
      let sign := rest.take 1 |>.filter fun c => c = '+' || c = '-'
      let digits := (rest.drop sign.length).takeWhile Char.isDigit
      if digits.isEmpty then [] else mark :: (sign ++ digits)
    else []

/-- The longest numeral at the front of a text that starts with one. -/
def numeralPart (cs : List Char) : List Char :=
  let whole := cs.takeWhile Char.isDigit
  let fraction := fractionPart (cs.drop whole.length)
  whole ++ fraction ++ exponentPart (cs.drop (whole.length + fraction.length))

def startsNumeral (c : Char) (rest : List Char) : Bool :=
  c.isDigit || (c = '.' && (rest.take 1).any Char.isDigit)

def first (c : Char) (rest : List Char) : Except SyntaxFault (TokenKind × List Char) :=
  match Symbol.ofChar? c with
  | some mark => .ok (.symbol mark, [c])
  | none =>
    if startsNumeral c rest then
      let text := numeralPart (c :: rest)
      match Numeral.ofChars? text with
      | none => .error (.unexpectedCharacter c)
      | some numeral =>
        if numeral.value.isFinite then .ok (.number numeral.value, text)
        else .error (.numberOutOfRange (String.ofList text))
    else if startsName c then
      let text := c :: rest.takeWhile continuesName
      .ok (.name (String.ofList text), text)
    else .error (.unexpectedCharacter c)

/-- The tokens of a text whose first character stands at a byte offset. -/
def allFrom (offset : Nat) : List Char → Except SyntaxError (List Token)
  | [] => .ok []
  | c :: rest =>
    if Text.isBlank c then allFrom (offset + c.utf8Size) rest
    else match first c rest with
      | .error fault => .error ⟨fault, offset⟩
      | .ok (kind, text) =>
        (allFrom (offset + text.length) (rest.drop (text.length - 1))).map
          (⟨kind, offset, String.ofList text⟩ :: ·)
termination_by cs => cs.length
decreasing_by all_goals simp only [List.length_cons, List.length_drop]; omega

def all (source : String) : Except SyntaxError (List Token) :=
  allFrom 0 source.toList

end Token

end Parametric
