import Parametric.Text.Ranges
/-! White space of Unicode, which separates tokens and is trimmed from input. -/

set_option autoImplicit false

namespace Parametric.Text

def blankRanges : List (Nat × Nat) :=
  [(9, 13), (32, 32), (133, 133), (160, 160), (5760, 5760), (8192, 8202), (8232, 8233),
    (8239, 8239), (8287, 8287), (12288, 12288)]

def isBlank (c : Char) : Bool :=
  inRanges c blankRanges

def trimStart (cs : List Char) : List Char :=
  cs.dropWhile isBlank

def trim (s : String) : String :=
  String.ofList ((trimStart (trimStart s.toList).reverse).reverse)

end Parametric.Text
