/-! Hexadecimal digits. -/

set_option autoImplicit false

namespace Parametric.Text

def hexValue? (c : Char) : Option Nat :=
  if '0' ≤ c ∧ c ≤ '9' then some (c.toNat - '0'.toNat)
  else if 'a' ≤ c ∧ c ≤ 'f' then some (c.toNat - 'a'.toNat + 10)
  else if 'A' ≤ c ∧ c ≤ 'F' then some (c.toNat - 'A'.toNat + 10)
  else none

def hexNumber? (cs : List Char) : Option Nat :=
  cs.foldlM (fun value c => (hexValue? c).map (16 * value + ·)) 0

/-- The `count` lowest hexadecimal digits of a number, most significant first. -/
def hexDigits (count : Nat) (value : Nat) : List Char :=
  (List.range count).reverse.map fun place => Nat.digitChar (value / Nat.pow 16 place % 16)

def hexBytes? (s : String) : Option ByteArray :=
  let rec pairs? : List Char → Option (List UInt8)
    | [] => some []
    | high :: low :: rest => do return (← hexNumber? [high, low]).toUInt8 :: (← pairs? rest)
    | _ => none
  (pairs? s.toList).map (·.toByteArray)

end Parametric.Text
