/-! Forms of RON values, which say what is expected at a place of a text. -/

set_option autoImplicit false

namespace Parametric.Ron

inductive Form where
  | float
  | natural (width : Nat)
  | bool
  | string
  | choice
  | option (form : Form)
  | list (form : Form)
  | tuple (name : Option String) (items : List Form)
  /-- Named fields in any order; the name may be left out. -/
  | record (name : String) (fields : List (String × Form))
  | variants (kinds : List (String × List (String × Form)))

end Parametric.Ron
