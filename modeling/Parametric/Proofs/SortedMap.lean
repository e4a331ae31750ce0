import Mathlib.Tactic.Tauto
import Parametric.SortedMap
/-! Look-ups in finite maps after each operation, and their keys. -/

set_option autoImplicit false

namespace Parametric.SortedMap

/-- The entries without a later one of the same key. -/
def standing {κ α : Type} [DecidableEq κ] : List (κ × α) → List (κ × α)
  | [] => []
  | e :: rest => if e.1 ∈ rest.map (·.1) then standing rest else e :: standing rest

theorem standing_of_nodup {κ α : Type} [DecidableEq κ] {entries : List (κ × α)}
    (distinct : (entries.map (·.1)).Nodup) : standing entries = entries := by
  induction entries with
  | nil => rfl
  | cons e rest ih =>
    obtain ⟨fresh, distinctRest⟩ := List.nodup_cons.mp distinct
    rw [standing, if_neg fresh, ih distinctRest]

theorem standing_subset {κ α : Type} [DecidableEq κ] (entries : List (κ × α)) :
    standing entries ⊆ entries := by
  induction entries with
  | nil => exact List.Subset.refl _
  | cons e rest ih =>
    rw [standing]
    split
    · exact List.subset_cons_of_subset e ih
    · exact List.cons_subset_cons e ih

theorem standing_map {κ α β : Type} [DecidableEq κ] {f : α → β} {entries : List (κ × α)} :
    standing (entries.map fun e => (e.1, f e.2)) =
      (standing entries).map fun e => (e.1, f e.2) := by
  induction entries with
  | nil => rfl
  | cons e rest ih =>
    have keys : (rest.map fun e => (e.1, f e.2)).map (·.1) = rest.map (·.1) := by
      rw [List.map_map]
      rfl
    rw [List.map_cons, standing, keys, ih, standing]
    split <;> rfl

variable {κ α β : Type} [Ord κ]

theorem contains_iff {m : SortedMap κ α} {key : κ} :
    m.contains key = true ↔ ∃ value, m.get? key = some value := by
  simp [contains, Option.isSome_iff_exists]

theorem contains_of_get? {m : SortedMap κ α} {key : κ} {value : α}
    (found : m.get? key = some value) : m.contains key = true :=
  contains_iff.mpr ⟨value, found⟩

instance [BEq κ] [LawfulBEq κ] [BEq α] [LawfulBEq α] : LawfulBEq (SortedMap κ α) where
  eq_of_beq {a b} same := by
    obtain ⟨entries, rising⟩ := a
    obtain ⟨entries', rising'⟩ := b
    cases eq_of_beq (show (entries == entries') = true from same)
    rfl
  rfl {a} := beq_self_eq_true a.entries

variable [Std.LawfulEqOrd κ]

theorem compare_eq_iff {a b : κ} : compare a b = .eq ↔ a = b :=
  Std.LawfulEqOrd.compare_eq_iff_eq

theorem find_of_mem [Std.TransOrd κ] {key : κ} {value : α} {entries : List (κ × α)}
    (sorted : Rising entries) (member : (key, value) ∈ entries) :
    find key entries = some value := by
  induction entries with
  | nil => cases member
  | cons head rest ih =>
    obtain ⟨above, sortedRest⟩ := List.pairwise_cons.mp sorted
    rcases List.mem_cons.mp member with rfl | later
    · simp [find]
    · have lower := above _ later
      -- All keys behind the head are greater, so the look-up does not stop there.
      have apart : compare key head.1 ≠ .eq := by
        intro same
        rw [← compare_eq_iff.mp same, compare_eq_iff.mpr rfl] at lower
        cases lower
      obtain ⟨k, v⟩ := head
      simpa [find, apart] using ih sortedRest later

theorem find_filter_ne (key other : κ) (entries : List (κ × α)) :
    find other (entries.filter fun e => compare key e.1 != .eq) =
      if compare key other = .eq then none else find other entries := by
  induction entries with
  | nil => simp [find]
  | cons head rest ih =>
    obtain ⟨k, v⟩ := head
    by_cases removed : compare key k = .eq
    · have same := compare_eq_iff.mp removed
      subst same
      have self : compare key key = .eq := removed
      by_cases asked : compare key other = .eq
      · have same := compare_eq_iff.mp asked
        subst same
        simpa [List.filter_cons, self] using ih
      · have apart : compare other key ≠ .eq := fun same =>
          asked (compare_eq_iff.mpr (compare_eq_iff.mp same).symm)
        simpa [List.filter_cons, self, asked, find, apart] using ih
    · by_cases asked : compare key other = .eq
      · have same := compare_eq_iff.mp asked
        subst same
        simpa [List.filter_cons, removed, asked, find] using ih
      · simp only [List.filter_cons, bne_iff_ne, ne_eq, removed, not_false_eq_true, ↓reduceIte,
          find, asked]
        rw [ih, if_neg asked]

theorem find_map (change : κ → α → β) (key : κ) (entries : List (κ × α)) :
    find key (entries.map fun e => (e.1, change e.1 e.2)) =
      (find key entries).map (change key) := by
  induction entries with
  | nil => rfl
  | cons head rest ih =>
    obtain ⟨k, v⟩ := head
    simp only [List.map_cons, find]
    split
    · next same =>
      have same := compare_eq_iff.mp same
      subst same
      rfl
    · exact ih

theorem get?_erase [DecidableEq κ] (m : SortedMap κ α) (key other : κ) :
    (m.erase key).get? other = if other = key then none else m.get? other := by
  have found := find_filter_ne key other m.entries
  simp only [compare_eq_iff, eq_comm (a := key)] at found
  exact found

@[simp] theorem get?_map (m : SortedMap κ α) (change : κ → α → β) (key : κ) :
    (m.map change).get? key = (m.get? key).map (change key) :=
  find_map change key m.entries

@[simp] theorem contains_map (m : SortedMap κ α) (change : κ → α → β) (key : κ) :
    (m.map change).contains key = m.contains key := by
  simp [contains]

theorem get?_modify [DecidableEq κ] (m : SortedMap κ α) (key other : κ) (change : α → α) :
    (m.modify key change).get? other =
      (m.get? other).map fun value => if other = key then change value else value := by
  rw [modify, get?_map]
  simp only [compare_eq_iff, eq_comm (a := key)]

theorem contains_erase [DecidableEq κ] {m : SortedMap κ α} {key other : κ} :
    (m.erase key).contains other = true ↔ other ≠ key ∧ m.contains other = true := by
  unfold contains
  rw [get?_erase]
  split <;> simp_all

theorem keys_nodup (m : SortedMap κ α) : m.keys.Nodup := by
  have rising : m.keys.Pairwise fun a b => compare a b = .lt := List.pairwise_map.mpr m.rising
  refine rising.imp fun {a b} lower same => ?_
  subst same
  rw [compare_eq_iff.mpr rfl] at lower
  cases lower

section Ordered

variable [Std.TransOrd κ]

theorem get?_insert [DecidableEq κ] (m : SortedMap κ α) (key other : κ) (value : α) :
    (m.insert key value).get? other = if other = key then some value else m.get? other := by
  split
  · next same => subst same; exact m.get?_insert_self other value
  · next different => exact m.get?_insert_of_ne different value

theorem contains_insert {m : SortedMap κ α} {key other : κ} {value : α} :
    (m.insert key value).contains other = true ↔ other = key ∨ m.contains other = true := by
  by_cases same : other = key
  · subst same
    simp [contains]
  · simp [contains, m.get?_insert_of_ne same, same]

theorem contains_ofList {entries : List (κ × α)} {key : κ} :
    (ofList entries).contains key = true ↔ key ∈ entries.map (·.1) := by
  -- The fold changes its map at each entry, so the induction is over all maps to start from.
  have from' : ∀ m : SortedMap κ α,
      (entries.foldl (fun m e => m.insert e.1 e.2) m).contains key = true ↔
        m.contains key = true ∨ key ∈ entries.map (·.1) := by
    induction entries with
    | nil => simp
    | cons e rest ih =>
      intro m
      rw [List.foldl_cons, ih, contains_insert, List.map_cons, List.mem_cons]
      tauto
  simpa [ofList, contains] using from' empty

theorem get?_ofList_iff [DecidableEq κ] {entries : List (κ × α)} {key : κ} {value : α} :
    (ofList entries).get? key = some value ↔ (key, value) ∈ standing entries := by
  -- What stands replaces what the fold starts from.
  have from' : ∀ m : SortedMap κ α,
      ((entries.foldl (fun m e => m.insert e.1 e.2) m).get? key = some value ↔
        (key, value) ∈ standing entries ∨ key ∉ entries.map (·.1) ∧ m.get? key = some value) := by
    induction entries with
    | nil => simp [standing]
    | cons e rest ih =>
      intro m
      obtain ⟨first, old⟩ := e
      rw [List.foldl_cons, ih, get?_insert, standing, List.map_cons, List.mem_cons]
      by_cases same : key = first
      · subst same
        by_cases later : key ∈ rest.map (·.1)
        · simp only [later, if_true, not_true_eq_false, false_and, or_false, true_or]
        · simp [later, eq_comm, or_comm]
      · rw [if_neg same]
        split <;> simp [same]
  simpa [ofList] using from' empty

theorem mem_of_get?_ofList [DecidableEq κ] {entries : List (κ × α)} {key : κ} {value : α}
    (found : (ofList entries).get? key = some value) : (key, value) ∈ entries :=
  standing_subset entries (get?_ofList_iff.mp found)

theorem get?_ofList [DecidableEq κ] {entries : List (κ × α)}
    (distinct : (entries.map (·.1)).Nodup) {key : κ} {value : α} :
    (ofList entries).get? key = some value ↔ (key, value) ∈ entries := by
  rw [get?_ofList_iff, standing_of_nodup distinct]

theorem mem_entries {m : SortedMap κ α} {key : κ} {value : α} :
    (key, value) ∈ m.entries ↔ m.get? key = some value :=
  ⟨find_of_mem m.rising, mem_of_find⟩

theorem get?_filter {m : SortedMap κ α} {keep : κ → α → Bool} {key : κ} {value : α} :
    (m.filter keep).get? key = some value ↔ m.get? key = some value ∧ keep key value = true := by
  rw [← mem_entries, ← mem_entries]
  exact List.mem_filter

theorem mem_values {m : SortedMap κ α} {value : α} :
    value ∈ m.values ↔ ∃ key, m.get? key = some value := by
  simp only [values, List.mem_map, Prod.exists, exists_eq_right, mem_entries]

theorem mem_keys {m : SortedMap κ α} {key : κ} : key ∈ m.keys ↔ m.contains key = true := by
  simp only [keys, List.mem_map, Prod.exists, exists_and_right, exists_eq_right, mem_entries,
    contains_iff]

theorem perm_keys {m : SortedMap κ α} {order : List κ} (distinct : order.Nodup)
    (same : ∀ key, key ∈ order ↔ m.contains key = true) : order.Perm m.keys :=
  (List.perm_ext_iff_of_nodup distinct m.keys_nodup).mpr fun key => (same key).trans mem_keys.symm

/-- Maps that answer every look-up alike are equal. -/
theorem eq_of_get? {m n : SortedMap κ α} (same : ∀ key, m.get? key = n.get? key) : m = n := by
  have nodup (m : SortedMap κ α) : m.entries.Nodup :=
    (List.pairwise_map.mp m.keys_nodup).imp fun apart same => apart (congrArg Prod.fst same)
  have perm : m.entries.Perm n.entries := by
    refine (List.perm_ext_iff_of_nodup (nodup m) (nodup n)).mpr fun ⟨key, value⟩ => ?_
    rw [mem_entries, mem_entries, same]
  have equal : m.entries = n.entries := by
    refine perm.eq_of_pairwise (fun a b _ _ below above => ?_) m.rising n.rising
    rw [Std.OrientedCmp.gt_of_lt below] at above
    cases above
  cases m
  cases n
  cases equal
  rfl

theorem ofList_perm [DecidableEq κ] {entries others : List (κ × α)}
    (distinct : (entries.map (·.1)).Nodup) (same : entries.Perm others) :
    ofList entries = ofList others := by
  refine eq_of_get? fun key => Option.ext fun value => ?_
  rw [get?_ofList distinct, get?_ofList ((same.map _).nodup_iff.mp distinct), same.mem_iff]

@[simp] theorem ofList_entries [DecidableEq κ] (m : SortedMap κ α) : ofList m.entries = m := by
  refine eq_of_get? fun key => Option.ext fun value => ?_
  exact (get?_ofList m.keys_nodup).trans mem_entries

end Ordered

end Parametric.SortedMap
