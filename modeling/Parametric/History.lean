/-! Undo history: the snapshots before and after the present one. -/

set_option autoImplicit false

namespace Parametric

/-- Snapshots around the present one, nearest first on both sides. -/
structure History (α : Type) where
  past : List α
  present : α
  future : List α
  limit : Option Nat
  deriving DecidableEq, Repr

namespace History

variable {α : Type}

def start (present : α) : History α :=
  ⟨[], present, [], none⟩

/-- Drop the oldest past snapshots beyond the limit. -/
def trim (h : History α) : History α :=
  match h.limit with
  | some limit => { h with past := h.past.take limit }
  | none => h

/-- Set the limit and keep to it at once. -/
def withLimit (h : History α) (limit : Option Nat) : History α :=
  trim { h with limit }

/-- Record a new present. What was undone is forgotten. -/
def push (h : History α) (value : α) : History α :=
  trim { h with past := h.present :: h.past, present := value, future := [] }

def undo (h : History α) : History α :=
  match h.past with
  | [] => h
  | previous :: past => { h with past, present := previous, future := h.present :: h.future }

def redo (h : History α) : History α :=
  match h.future with
  | [] => h
  | following :: future => { h with past := h.present :: h.past, present := following, future }

def canUndo (h : History α) : Bool :=
  !h.past.isEmpty

def canRedo (h : History α) : Bool :=
  !h.future.isEmpty

end History

end Parametric
