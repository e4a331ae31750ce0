/-! Finite maps listed by increasing key.

Each key has at most one value, so two maps are equal when they answer every
look-up alike.
-/

set_option autoImplicit false

namespace Parametric

variable {κ α β : Type} [Ord κ]

def Rising (entries : List (κ × α)) : Prop :=
  entries.Pairwise fun a b => compare a.1 b.1 = .lt

structure SortedMap (κ α : Type) [Ord κ] where
  entries : List (κ × α)
  rising : Rising entries

namespace SortedMap

def find (key : κ) : List (κ × α) → Option α
  | [] => none
  | (k, v) :: rest => if compare key k = .eq then some v else find key rest

def place (key : κ) (value : α) : List (κ × α) → List (κ × α)
  | [] => [(key, value)]
  | (k, v) :: rest => match compare key k with
    | .lt => (key, value) :: (k, v) :: rest
    | .eq => (key, value) :: rest
    | .gt => (k, v) :: place key value rest

theorem mem_place {key : κ} {value : α} {entries : List (κ × α)} {e : κ × α}
    (found : e ∈ place key value entries) : e = (key, value) ∨ e ∈ entries := by
  induction entries with
  | nil => simp_all [place]
  | cons head rest ih =>
    obtain ⟨k, v⟩ := head
    simp only [place] at found
    split at found <;> grind

def empty : SortedMap κ α := ⟨[], List.Pairwise.nil⟩

instance : Inhabited (SortedMap κ α) := ⟨empty⟩

def get? (m : SortedMap κ α) (key : κ) : Option α :=
  find key m.entries

def contains (m : SortedMap κ α) (key : κ) : Bool :=
  (m.get? key).isSome

def filter (m : SortedMap κ α) (keep : κ → α → Bool) : SortedMap κ α :=
  ⟨m.entries.filter fun e => keep e.1 e.2, m.rising.filter _⟩

def erase (m : SortedMap κ α) (key : κ) : SortedMap κ α :=
  m.filter fun k _ => compare key k != .eq

def map (m : SortedMap κ α) (change : κ → α → β) : SortedMap κ β :=
  ⟨m.entries.map fun e => (e.1, change e.1 e.2), by
    unfold Rising
    exact List.pairwise_map.mpr m.rising⟩

def modify (m : SortedMap κ α) (key : κ) (change : α → α) : SortedMap κ α :=
  m.map fun k v => if compare key k = .eq then change v else v

def keys (m : SortedMap κ α) : List κ :=
  m.entries.map (·.1)

def values (m : SortedMap κ α) : List α :=
  m.entries.map (·.2)

def size (m : SortedMap κ α) : Nat :=
  m.entries.length

def isEmpty (m : SortedMap κ α) : Bool :=
  m.entries.isEmpty

instance [BEq κ] [BEq α] : BEq (SortedMap κ α) where
  beq a b := a.entries == b.entries

instance [DecidableEq κ] [DecidableEq α] : DecidableEq (SortedMap κ α) := fun a b =>
  decidable_of_iff (a.entries = b.entries) (by cases a; cases b; simp)

@[simp] theorem get?_empty (key : κ) : (empty : SortedMap κ α).get? key = none := rfl

section Lawful

variable [Std.LawfulEqOrd κ]

theorem mem_of_find {key : κ} {value : α} {entries : List (κ × α)}
    (found : find key entries = some value) : (key, value) ∈ entries := by
  induction entries with
  | nil => cases found
  | cons head rest ih =>
    obtain ⟨k, v⟩ := head
    simp only [find] at found
    split at found
    · next same =>
      cases found
      rw [Std.LawfulEqCmp.eq_of_compare same]
      exact List.mem_cons_self
    · exact List.mem_cons_of_mem _ (ih found)

theorem find_place_self (key : κ) (value : α) (entries : List (κ × α)) :
    find key (place key value entries) = some value := by
  induction entries with
  | nil => simp [place, find]
  | cons head rest ih =>
    obtain ⟨k, v⟩ := head
    simp only [place]
    split <;> simp_all [find]

theorem find_place_of_ne {key other : κ} (different : other ≠ key) (value : α)
    (entries : List (κ × α)) : find other (place key value entries) = find other entries := by
  have apart : compare other key ≠ .eq := fun same =>
    different (Std.LawfulEqCmp.eq_of_compare same)
  induction entries with
  | nil => simp [place, find, apart]
  | cons head rest ih =>
    obtain ⟨k, v⟩ := head
    simp only [place]
    split
    · simp [find, apart]
    · next same =>
      have : key = k := Std.LawfulEqCmp.eq_of_compare same
      subst this
      simp [find, apart]
    · simp [find, ih]

variable [Std.TransOrd κ]

theorem rising_place {key : κ} {value : α} {entries : List (κ × α)} (sorted : Rising entries) :
    Rising (place key value entries) := by
  induction entries with
  | nil => simp [place, Rising]
  | cons head rest ih =>
    obtain ⟨k, v⟩ := head
    obtain ⟨above, sortedRest⟩ := List.pairwise_cons.mp sorted
    simp only [place]
    split
    · next lower =>
      refine List.pairwise_cons.mpr ⟨fun e member => ?_, sorted⟩
      rcases List.mem_cons.mp member with rfl | member
      · exact lower
      · exact Std.TransCmp.lt_trans lower (above e member)
    · next same =>
      have : key = k := Std.LawfulEqCmp.eq_of_compare same
      subst this
      exact List.pairwise_cons.mpr ⟨above, sortedRest⟩
    · next higher =>
      refine List.pairwise_cons.mpr ⟨fun e member => ?_, ih sortedRest⟩
      rcases mem_place member with rfl | member
      · exact Std.OrientedCmp.lt_of_gt higher
      · exact above e member

def insert (m : SortedMap κ α) (key : κ) (value : α) : SortedMap κ α :=
  ⟨place key value m.entries, rising_place m.rising⟩

/-- The map of a list of entries; of two entries with one key the later stands. -/
def ofList (entries : List (κ × α)) : SortedMap κ α :=
  entries.foldl (fun m e => m.insert e.1 e.2) empty

@[simp] theorem get?_insert_self (m : SortedMap κ α) (key : κ) (value : α) :
    (m.insert key value).get? key = some value :=
  find_place_self key value m.entries

theorem get?_insert_of_ne (m : SortedMap κ α) {key other : κ} (different : other ≠ key)
    (value : α) : (m.insert key value).get? other = m.get? other :=
  find_place_of_ne different value m.entries

theorem contains_insert_self (m : SortedMap κ α) (key : κ) (value : α) :
    (m.insert key value).contains key = true := by
  simp [contains]

theorem contains_insert_of_ne (m : SortedMap κ α) {key other : κ} (different : other ≠ key)
    (value : α) : (m.insert key value).contains other = m.contains other := by
  simp [contains, m.get?_insert_of_ne different]

end Lawful

end SortedMap

end Parametric
