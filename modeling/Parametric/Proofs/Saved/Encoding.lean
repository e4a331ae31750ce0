import Parametric.Proofs.Ron.Schema
import Parametric.Saved.File
/-! The file of a document holds what is stored of the document.

A document fits into a file if its numbers fit into the widths they are stored with
and the times of its changes are read back from their text.
-/

set_option autoImplicit false

namespace Parametric

open Ron (Fields Gives Stores Value)

variable (levels : Nat)

theorem entries_stores {kind : IdKind} {α : Type} {schema : Ron.Schema α} {encode : α → Value}
    {entries : List (Id kind × α)} (stored : ∀ e ∈ entries, Stores levels schema (encode e.2) e.2) :
    Stores (levels + 4) (entriesSchema schema) (entriesToRon encode entries) entries :=
  .list fun e member => .pair (.id levels e.1) (stored e member)

theorem Parameter.stores (p : Parameter) : Stores (levels + 3) schema p.toRon p := by
  obtain ⟨id, name, expression, value, unit⟩ := p
  apply Stores.record _ rfl (by decide)
  exact .seq (.seq (.seq (.seq
    (.map _ (.required rfl (.id _ id)))
    (.required rfl (.string _ name)))
    (.required rfl (.string _ expression)))
    (.required rfl (.float _ value)))
    (.defaulted rfl (.option fun s _ => .string levels s))

theorem Parameter.list_stores (params : List Parameter) :
    Stores (levels + 7) listSchema (listToRon params) params := by
  apply Stores.record _ rfl (by decide)
  exact .required rfl (.list fun p _ => p.stores levels)

theorem Dimension.stores (d : Dimension) : Stores (levels + 3) schema d.toRon d := by
  obtain ⟨value, expression, parameter⟩ := d
  apply Stores.record _ rfl (by decide)
  exact .seq (.seq
    (.map _ (.required rfl (.float _ value)))
    (.defaulted rfl (.option fun s _ => .string levels s)))
    (.defaulted rfl (.option fun id _ => .id levels id))

theorem Plane.stores (p : Plane) : Stores (levels + 4) schema p.toRon p := by
  obtain ⟨id, name, origin, normal, xAxis, yAxis⟩ := p
  apply Stores.record _ rfl (by decide)
  exact .seq (.seq (.seq (.seq (.seq
    (.map _ (.required rfl (.id _ id)))
    (.required rfl (.string _ name)))
    (.required rfl (.vec3 levels origin)))
    (.required rfl (.vec3 levels normal)))
    (.required rfl (.vec3 levels xAxis)))
    (.required rfl (.vec3 levels yAxis))

theorem Primitive.isWord_typeName (p : Primitive) : Ron.Reader.isWord p.typeName = true := by
  rw [typeName]
  cases p.shape <;> dsimp only <;> decide

theorem Primitive.stores (p : Primitive) : Stores (levels + 3) schema p.toRon p := by
  obtain ⟨shape, construction⟩ := p
  cases shape with
  | point x y =>
    apply Stores.variants _ rfl (by decide) (isWord_typeName _) rfl
    exact .seq (.map _ (.seq
      (.map _ (.required rfl (.float levels x)))
      (.required rfl (.float _ y))))
      (.defaulted rfl (.bool _ construction))
  | line start finish =>
    apply Stores.variants _ rfl (by decide) (isWord_typeName _) rfl
    exact .seq (.map _ (.seq
      (.map _ (.required rfl (.id levels start)))
      (.required rfl (.id _ finish))))
      (.defaulted rfl (.bool _ construction))
  | circle center radius =>
    apply Stores.variants _ rfl (by decide) (isWord_typeName _) rfl
    exact .seq (.map _ (.seq
      (.map _ (.required rfl (.id levels center)))
      (.required rfl (.float _ radius))))
      (.defaulted rfl (.bool _ construction))
  | arc center start finish clockwise =>
    apply Stores.variants _ rfl (by decide) (isWord_typeName _) rfl
    exact .seq (.map _ (.seq (.seq (.seq
      (.map _ (.required rfl (.id levels center)))
      (.required rfl (.id _ start)))
      (.required rfl (.id _ finish)))
      (.required rfl (.bool _ clockwise))))
      (.defaulted rfl (.bool _ construction))

theorem SavedSketch.stores (s : SavedSketch) : Stores (levels + 9) schema s.toRon s := by
  obtain ⟨id, name, plane, primitives, solved⟩ := s
  apply Stores.record _ rfl (by decide)
  exact .seq (.seq (.seq (.seq
    (.map _ (.required rfl (.id _ id)))
    (.required rfl (.string _ name)))
    (.required rfl (.id _ plane)))
    (.required rfl (entries_stores (levels + 3) fun e _ => e.2.stores levels)))
    (.defaulted rfl (entries_stores (levels + 3) fun e _ => .vec2 (levels + 1) e.2))

/-! ## Features -/

/-- The face fits into the width it is stored with. -/
def Profile.Storable : Profile → Prop
  | .sketch _ => True
  | .face f => f.index < 2 ^ 32

def Feature.Storable : Feature → Prop
  | .extrude profile .. | .revolve profile .. => profile.Storable
  | .fillet _ edges _ => ∀ edge ∈ edges, edge < 2 ^ 32
  | _ => True

instance : DecidablePred Profile.Storable
  | .sketch _ => inferInstanceAs (Decidable True)
  | .face f => inferInstanceAs (Decidable (f.index < 2 ^ 32))

instance : DecidablePred Feature.Storable
  | .extrude profile .. | .revolve profile .. => inferInstanceAs (Decidable profile.Storable)
  | .fillet _ edges _ => inferInstanceAs (Decidable (∀ edge ∈ edges, edge < 2 ^ 32))
  | .sketch .. | .boolean .. => inferInstanceAs (Decidable True)

theorem Profile.stores {profile : Profile} (storable : profile.Storable) :
    Stores (levels + 5) schema profile.toRon profile := by
  cases profile with
  | sketch id =>
    apply Stores.variants _ rfl (by decide) (by decide) rfl
    exact .map _ (.required rfl (.id _ id))
  | face f =>
    obtain ⟨op, index⟩ := f
    apply Stores.variants _ rfl (by decide) (by decide) rfl
    have stored : Stores (levels + 2) FaceRef.schema (FaceRef.toRon ⟨op, index⟩) ⟨op, index⟩ := by
      apply Stores.record _ rfl (by decide)
      exact .seq (.map _ (.required rfl (.id levels op))) (.required rfl (.natural _ storable))
    exact .map _ (.required rfl stored)

theorem ExtrudeDirection.stores (direction : ExtrudeDirection) :
    Stores (levels + 2) (.choice all name) (.choice direction.name) direction := by
  cases direction <;> exact .choice levels rfl rfl

theorem AxisChoice.stores (choice : AxisChoice) :
    Stores (levels + 2) (.choice all name) (.choice choice.name) choice := by
  cases choice <;> exact .choice levels rfl rfl

theorem BooleanOperation.stores (operation : BooleanOperation) :
    Stores (levels + 2) (.choice all name) (.choice operation.name) operation := by
  cases operation <;> exact .choice levels rfl rfl

theorem Op.isWord_typeName (op : Op) : Ron.Reader.isWord op.typeName = true := by
  rw [typeName]
  cases op.feature <;> dsimp only [Feature.typeName] <;> decide

theorem Op.gives {id : OpId} {name : String} {feature : Feature} {suppressed : Bool}
    {written : List (String × Value)} {fields : Fields Feature}
    (hasId : written.lookup "id" = some id.toRon)
    (hasName : written.lookup "name" = some (.string name))
    (hasSuppressed : written.lookup "suppressed" = some (.bool suppressed))
    (given : Gives levels written fields feature) :
    Gives levels written (Op.mk <$> .required "id" .id <*> .required "name" .string <*> fields
      <*> .defaulted "suppressed" .bool false) ⟨id, name, feature, suppressed⟩ :=
  .seq (.seq (.seq
    (.map _ (.required hasId (.id _ id)))
    (.required hasName (.string _ name)))
    given)
    (.defaulted hasSuppressed (.bool _ suppressed))

theorem Op.stores {op : Op} (storable : op.feature.Storable) :
    Stores (levels + 8) schema op.toRon op := by
  obtain ⟨id, name, feature, suppressed⟩ := op
  cases feature with
  | sketch s plane =>
    apply Stores.variants _ rfl (by decide) (isWord_typeName _) rfl
    exact Op.gives _ rfl rfl rfl (.seq
      (.map _ (.required rfl (.id _ s)))
      (.required rfl (.id _ plane)))
  | extrude profile direction depth =>
    apply Stores.variants _ rfl (by decide) (isWord_typeName _) rfl
    exact Op.gives _ rfl rfl rfl (.seq (.seq
      (.map _ (.required rfl (Profile.stores levels storable)))
      (.required rfl (direction.stores (levels + 3))))
      (.required rfl (depth.stores (levels + 2))))
  | revolve profile choice axis angle =>
    obtain ⟨origin, direction⟩ := axis
    apply Stores.variants _ rfl (by decide) (isWord_typeName _) rfl
    exact Op.gives _ rfl rfl rfl (.seq (.seq (.seq (.seq
      (.map _ (.required rfl (Profile.stores levels storable)))
      (.required rfl (choice.stores (levels + 3))))
      (.required rfl (.vec3 (levels + 3) origin)))
      (.required rfl (.vec3 (levels + 3) direction)))
      (.required rfl (angle.stores (levels + 2))))
  | fillet target edges radius =>
    apply Stores.variants _ rfl (by decide) (isWord_typeName _) rfl
    exact Op.gives _ rfl rfl rfl (.seq (.seq
      (.map _ (.required rfl (.id _ target)))
      (.required rfl (.list fun edge member => .natural (levels + 3) (storable edge member))))
      (.required rfl (radius.stores (levels + 2))))
  | boolean operation target tool =>
    apply Stores.variants _ rfl (by decide) (isWord_typeName _) rfl
    exact Op.gives _ rfl rfl rfl (.seq (.seq
      (.map _ (.required rfl (operation.stores (levels + 3))))
      (.required rfl (.id _ target)))
      (.required rfl (.id _ tool)))

theorem Node.stores {node : Node} (storable : node.op.feature.Storable) :
    Stores (levels + 10) schema node.toRon node := by
  obtain ⟨op, dependencies⟩ := node
  apply Stores.record _ rfl (by decide)
  exact .seq
    (.map _ (.required rfl (Op.stores levels storable)))
    (.required rfl (.list fun id _ => .id (levels + 6) id))

/-! ## Studios and documents -/

structure SavedStudio.Storable (s : SavedStudio) : Prop where
  feature : ∀ e ∈ s.nodes, e.2.op.feature.Storable
  cutoff : ∀ cutoff ∈ s.cutoff, cutoff < 2 ^ 64
  modified : ∀ time ∈ s.modified, Timestamp.ofText? (time.text "Z") = some time

instance : DecidablePred SavedStudio.Storable := fun s =>
  decidable_of_iff
    ((∀ e ∈ s.nodes, e.2.op.feature.Storable) ∧ (∀ cutoff ∈ s.cutoff, cutoff < 2 ^ 64) ∧
      ∀ time ∈ s.modified, Timestamp.ofText? (time.text "Z") = some time)
    ⟨fun ⟨feature, cutoff, modified⟩ => ⟨feature, cutoff, modified⟩,
      fun storable => ⟨storable.feature, storable.cutoff, storable.modified⟩⟩

theorem SavedStudio.stores {s : SavedStudio} (storable : s.Storable) :
    Stores (levels + 16) schema s.toRon s := by
  obtain ⟨feature, inWidth, readBack⟩ := storable
  obtain ⟨id, name, nodes, sketches, planes, cutoff, modified⟩ := s
  have changed : Stores (levels + 14) modifiedSchema (.record none [("modified_at",
      .option (fun time => .string (time.text "Z")) modified)]) modified := by
    apply Stores.record _ rfl (by decide)
    exact .defaulted rfl (.option fun time member => .ofText _ (readBack time member))
  apply Stores.record _ rfl (by decide)
  exact .seq (.seq (.seq (.seq (.seq (.seq
    (.map _ (.required rfl (.id _ id)))
    (.required rfl (.string _ name)))
    (.required rfl (entries_stores _ fun e member => Node.stores levels (feature e member))))
    (.required rfl (entries_stores _ fun e _ => e.2.stores (levels + 1))))
    (.required rfl (entries_stores _ fun e _ => e.2.stores (levels + 6))))
    (.defaulted rfl (.option fun n member => .natural (levels + 13) (inWidth n member))))
    (.defaulted rfl changed)

theorem SavedDocument.stores {d : SavedDocument} (storable : ∀ e ∈ d.studios, e.2.Storable) :
    Stores (levels + 22) schema d.toRon d := by
  obtain ⟨studios, params⟩ := d
  apply Stores.record _ rfl (by decide)
  exact .seq
    (.map _ (.required rfl (entries_stores _ fun e member =>
      SavedStudio.stores levels (storable e member))))
    (.defaulted rfl (Parameter.list_stores (levels + 13) params))

theorem DocumentFile.stores {d : SavedDocument} (storable : ∀ e ∈ d.studios, e.2.Storable) :
    Stores (levels + 24) schema (toRon ⟨formatVersion, d⟩) ⟨formatVersion, d⟩ := by
  apply Stores.record _ rfl (by decide)
  exact .seq
    (.map _ (.required rfl (.natural _ (show formatVersion < 2 ^ 32 by decide))))
    (.required rfl (SavedDocument.stores levels storable))

/-- What the studios of a document have fits into a file. -/
def Document.Storable (d : Document) : Prop :=
  ∀ s ∈ d.studios, s.save.Storable

instance : DecidablePred Document.Storable := fun d =>
  inferInstanceAs (Decidable (∀ s ∈ d.studios, s.save.Storable))

theorem fromUTF8?_toUTF8 (text : String) : String.fromUTF8? text.toUTF8 = some text :=
  dif_pos text.isValidUTF8

/-- What is stored is read back from its file. -/
theorem SavedDocument.ofFile_write {d : SavedDocument} (storable : ∀ e ∈ d.studios, e.2.Storable) :
    ofFile ((DocumentFile.toRon ⟨formatVersion, d⟩).write .spread).toUTF8 = .ok d := by
  have read := (DocumentFile.stores 104 storable).read?
  rw [ofFile, fromUTF8?_toUTF8]
  dsimp only
  rw [ofFileText, read]
  rfl

/-- The stored form of a document is read back from its file. -/
theorem SavedDocument.ofFile_fileText {d : Document} (storable : d.Storable) :
    ofFile d.fileText.toUTF8 = .ok d.save := by
  apply ofFile_write
  intro e member
  obtain ⟨s, listed, rfl⟩ := List.mem_map.mp member
  exact storable s listed

end Parametric
