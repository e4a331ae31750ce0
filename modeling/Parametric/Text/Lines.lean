/-! Texts made of lines. -/

set_option autoImplicit false

namespace Parametric.Text

def ofLines (lines : List String) : String :=
  String.join (lines.map (· ++ "\n"))

end Parametric.Text
