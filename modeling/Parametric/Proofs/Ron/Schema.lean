import Parametric.Proofs.Identifier
import Parametric.Proofs.Ron.Reading
import Parametric.Ron.Schema
/-! What is written of a domain value stands for that value again.

Each schema passes this on from its parts. A record asks for every field by its name,
so its fields are compared with the whole list of written ones.
-/

set_option autoImplicit false

namespace Parametric.Ron

variable {α β : Type} {levels : Nat}

/-- A written value is read back, and what it stands for is `x`. -/
structure Stores (levels : Nat) (schema : Schema α) (v : Value) (x : α) : Prop where
  back : ReadBack levels schema.form v
  decode : schema.decode v = some x

structure Gives (levels : Nat) (written : List (String × Value)) (fields : Fields α) (x : α) :
    Prop where
  back : ∀ entry ∈ fields.forms, ∃ v, written.lookup entry.1 = some v ∧ ReadBack levels entry.2 v
  decode : fields.decode written = some x

namespace Stores

theorem float (levels : Nat) (x : Float) : Stores levels .float (.float x) x :=
  ⟨.float levels x, rfl⟩

theorem natural (levels : Nat) {width n : Nat} (fits : n < 2 ^ width) :
    Stores levels (.natural width) (.natural n) n :=
  ⟨.natural levels fits, rfl⟩

theorem bool (levels : Nat) (b : Bool) : Stores levels .bool (.bool b) b :=
  ⟨.bool levels b, rfl⟩

theorem ofText (levels : Nat) {read? : String → Option α} {text : String} {x : α}
    (read : read? text = some x) : Stores levels (.ofText read?) (.string text) x :=
  ⟨.string levels text, read⟩

theorem string (levels : Nat) (s : String) : Stores levels .string (.string s) s :=
  ofText levels rfl

theorem id (levels : Nat) {kind : IdKind} (id : Id kind) :
    Stores levels .id (.string id.text) id :=
  ofText levels (Id.ofText?_text id)

theorem choice (levels : Nat) {choices : List α} {name : α → String} {x : α}
    (word : Reader.isWord (name x) = true) (found : choices.find? (name · = name x) = some x) :
    Stores (levels + 2) (.choice choices name) (.choice (name x)) x :=
  ⟨.choice levels word, found⟩

theorem option {schema : Schema α} {encode : α → Value} {x : Option α}
    (stored : ∀ y ∈ x, Stores levels schema (encode y) y) :
    Stores (levels + 1) (.option schema) (.option encode x) x := by
  cases x with
  | none => exact ⟨.absent _ _, rfl⟩
  | some y =>
    have inner := stored y rfl
    exact ⟨inner.back.present, by simp [Schema.option, Value.option, inner.decode]⟩

theorem list {schema : Schema α} {encode : α → Value} {xs : List α}
    (stored : ∀ x ∈ xs, Stores levels schema (encode x) x) :
    Stores (levels + 2) (.list schema) (.list (xs.map encode)) xs := by
  constructor
  · apply ReadBack.list
    intro v member
    obtain ⟨x, listed, rfl⟩ := List.mem_map.mp member
    exact (stored x listed).back
  · change (xs.map encode).mapM schema.decode = some xs
    induction xs with
    | nil => rfl
    | cons x xs ih =>
      have first := (stored x List.mem_cons_self).decode
      have others := ih fun y member => stored y (List.mem_cons_of_mem x member)
      rw [List.map_cons, List.mapM_cons, first, others]
      rfl

theorem pair {first : Schema α} {second : Schema β} {v w : Value} {x : α} {y : β}
    (left : Stores levels first v x) (right : Stores levels second w y) :
    Stores (levels + 2) (.pair first second) (.pair v w) (x, y) := by
  constructor
  · exact ReadBack.tuple (.cons left.back (.cons right.back .nil))
  · simp [Schema.pair, Value.pair, left.decode, right.decode]

theorem vec2 (levels : Nat) (v : Vec2) :
    Stores (levels + 2) .vec2 (.tuple [.float v.x, .float v.y]) v :=
  ⟨.tuple (.cons (.float _ _) (.cons (.float _ _) .nil)), rfl⟩

theorem vec3 (levels : Nat) (v : Vec3) :
    Stores (levels + 2) .vec3 (.tuple [.float v.x, .float v.y, .float v.z]) v :=
  ⟨.tuple (.cons (.float _ _) (.cons (.float _ _) (.cons (.float _ _) .nil))), rfl⟩

end Stores

/-! ## Records -/

namespace Gives

variable {written : List (String × Value)}

theorem required {name : String} {schema : Schema α} {v : Value} {x : α}
    (present : written.lookup name = some v) (stored : Stores levels schema v x) :
    Gives levels written (.required name schema) x := by
  constructor
  · intro entry member
    cases List.mem_singleton.mp member
    exact ⟨v, present, stored.back⟩
  · change (written.lookup name).bind schema.decode = some x
    rw [present]
    exact stored.decode

theorem defaulted {name : String} {schema : Schema α} {default : α} {v : Value} {x : α}
    (present : written.lookup name = some v) (stored : Stores levels schema v x) :
    Gives levels written (.defaulted name schema default) x := by
  constructor
  · intro entry member
    cases List.mem_singleton.mp member
    exact ⟨v, present, stored.back⟩
  · simp only [Fields.defaulted, present]
    exact stored.decode

theorem seq {f : Fields (α → β)} {fields : Fields α} {g : α → β} {x : α}
    (earlier : Gives levels written f g) (later : Gives levels written fields x) :
    Gives levels written (f <*> fields) (g x) := by
  constructor
  · intro entry member
    rcases List.mem_append.mp member with inEarlier | inLater
    · exact earlier.back entry inEarlier
    · exact later.back entry inLater
  · change (do return (← f.decode written) (← fields.decode written)) = some (g x)
    rw [earlier.decode, later.decode]
    rfl

theorem pure (levels : Nat) (written : List (String × Value)) (x : α) :
    Gives levels written (Pure.pure x) x := by
  constructor
  · intro entry member
    cases member
  · rfl

theorem map (g : α → β) {fields : Fields α} {x : α} (given : Gives levels written fields x) :
    Gives levels written (g <$> fields) (g x) :=
  (pure levels written g).seq given

end Gives

theorem lookup_of_mem {γ : Type} {entries : List (String × γ)}
    (distinct : (entries.map (·.1)).Nodup) {entry : String × γ} (member : entry ∈ entries) :
    entries.lookup entry.1 = some entry.2 := by
  induction entries with
  | nil => cases member
  | cons first entries ih =>
    obtain ⟨fresh, distinct⟩ := List.nodup_cons.mp distinct
    rcases List.mem_cons.mp member with rfl | later
    · rw [List.lookup_cons, beq_self_eq_true]
    · have other : entry.1 ≠ first.1 := by
        intro same
        apply fresh
        exact List.mem_map.mpr ⟨entry, later, same⟩
      rw [List.lookup_cons, beq_false_of_ne other]
      exact ih distinct later

theorem lookup_map {γ δ : Type} (f : γ → δ) (key : String) (entries : List (String × γ)) :
    (entries.map fun entry => (entry.1, f entry.2)).lookup key = (entries.lookup key).map f := by
  induction entries with
  | nil => rfl
  | cons entry entries ih =>
    rw [List.map_cons, List.lookup_cons, List.lookup_cons, ih]
    cases key == entry.1 <;> rfl

def Named (names : List String) : Prop :=
  names.Nodup ∧ names.all Reader.isWord = true
  deriving Decidable

theorem Gives.fieldsBack {written : List (String × Value)} {fields : Fields α} {x : α}
    (given : Gives levels written fields x)
    (asked : fields.forms.map (·.1) = written.map (·.1)) (named : Named (fields.forms.map (·.1))) :
    FieldsBack levels fields.forms written := by
  have distinct : (written.map (·.1)).Nodup := asked ▸ named.1
  have listed : ∀ field ∈ written, field.1 ∈ fields.forms.map (·.1) := by
    intro field member
    rw [asked]
    exact List.mem_map_of_mem member
  constructor
  · exact distinct
  · intro field member
    exact List.all_eq_true.mp named.2 field.1 (listed field member)
  · intro field member
    obtain ⟨entry, inForms, same⟩ := List.mem_map.mp (listed field member)
    obtain ⟨v, found, back⟩ := given.back entry inForms
    rw [same, lookup_of_mem distinct member] at found
    cases found
    exact ⟨entry.2, same ▸ lookup_of_mem named.1 inForms, back⟩

theorem Stores.record {written : List (String × Value)} {fields : Fields α} {x : α}
    (given : Gives levels written fields x)
    (asked : fields.forms.map (·.1) = written.map (·.1)) (named : Named (fields.forms.map (·.1)))
    (name : String) : Stores (levels + 2) (.record name fields) (.record none written) x :=
  ⟨(given.fieldsBack asked named).record name, given.decode⟩

theorem Stores.variants {written : List (String × Value)} {fields : Fields α} {x : α}
    (given : Gives levels written fields x)
    (asked : fields.forms.map (·.1) = written.map (·.1)) (named : Named (fields.forms.map (·.1)))
    {kind : String} (word : Reader.isWord kind = true) {kinds : List (String × Fields α)}
    (listed : kinds.lookup kind = some fields) :
    Stores (levels + 3) (.variants kinds) (.record (some kind) written) x := by
  have forms : (kinds.map fun kind => (kind.1, kind.2.forms)).lookup kind = some fields.forms := by
    rw [lookup_map Fields.forms, listed, Option.map_some]
  constructor
  · exact (given.fieldsBack asked named).variant word forms
  · change (kinds.lookup kind).bind (·.decode written) = some x
    rw [listed]
    exact given.decode

/-- What is written of a value can be read from its text. -/
theorem Stores.read? {schema : Schema α} {v : Value} {x : α}
    (stored : Stores levelLimit schema v x) : schema.read? (v.write .spread) = some x := by
  rw [Schema.read?, stored.back.read?]
  exact stored.decode

end Parametric.Ron
