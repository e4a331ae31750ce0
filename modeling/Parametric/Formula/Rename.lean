import Parametric.Text.Blank
import Parametric.Text.WordCharacter
/-! Renaming a name in the text of a formula.

The text is changed in place, so its spacing and numerals stay as they were
written. The words to replace are found by a pattern engine, which may refuse a name
whose pattern is too large; the text is then left as it is.
-/

set_option autoImplicit false

namespace Parametric.Formula

def isBoundary (before after : Option Char) : Bool :=
  before.any Text.isWordCharacter != after.any Text.isWordCharacter

/-- Whether `old` stands at the front of the text, between word boundaries. -/
def standsAt (old : List Char) (before : Option Char) (cs : List Char) : Bool :=
  isBoundary before cs.head? && old.isPrefixOf cs &&
    isBoundary (old.getLast? <|> before) (cs.drop old.length).head?

def isCalled (cs : List Char) : Bool :=
  (Text.trimStart cs).head? = some '('

/-- The text with `old` replaced by `fresh`, after the character `before`; the first
`skipped` characters belong to an occurrence that is already written. -/
def renameFrom (old fresh : List Char) (before : Option Char) (skipped : Nat) :
    List Char → List Char
  | [] => if skipped = 0 && standsAt old before [] then fresh else []
  | c :: rest =>
    if 0 < skipped then renameFrom old fresh (some c) (skipped - 1) rest
    else if standsAt old before (c :: rest) then
      let written := if isCalled ((c :: rest).drop old.length) then old else fresh
      -- An empty name takes no character of the text, which goes on with `c`.
      if old.isEmpty then written ++ c :: renameFrom old fresh (some c) 0 rest
      else written ++ renameFrom old fresh (some c) (old.length - 1) rest
    else c :: renameFrom old fresh (some c) 0 rest

/-- The pattern engine without a limit. -/
def anyWord (_ : String) : Bool := true

/-- Replace `old` by `fresh` wherever it stands as a whole word and is not called, if the
engine takes the pattern for `old`. -/
def rename (source old fresh : String) (takes : String → Bool := anyWord) : String :=
  if takes old then String.ofList (renameFrom old.toList fresh.toList none 0 source.toList)
  else source

end Parametric.Formula
