import Parametric.Identifier
import Parametric.SortedMap
/-! The features that are selected. -/

set_option autoImplicit false

namespace Parametric

structure Selection where
  ops : SortedMap OpId Unit
  deriving DecidableEq

namespace Selection

def empty : Selection := ⟨.empty⟩

instance : Inhabited Selection := ⟨empty⟩

def contains (s : Selection) (id : OpId) : Bool :=
  s.ops.contains id

def toList (s : Selection) : List OpId :=
  s.ops.keys

def select (s : Selection) (id : OpId) : Selection :=
  ⟨s.ops.insert id ()⟩

def selectOnly (_ : Selection) (id : OpId) : Selection :=
  empty.select id

def deselect (s : Selection) (id : OpId) : Selection :=
  ⟨s.ops.erase id⟩

def toggle (s : Selection) (id : OpId) : Selection :=
  if s.contains id then s.deselect id else s.select id

def filter (s : Selection) (keep : OpId → Bool) : Selection :=
  ⟨s.ops.filter fun id _ => keep id⟩

end Selection

end Parametric
