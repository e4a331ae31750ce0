import Parametric.Proofs.Ron.Selection
import Parametric.Proofs.Saved.Encoding
/-! Files of other format versions.

A file is read by the form that documents have now, and only then its version is looked at. So
another version is reported where the document is stored as documents are now. Where it is not, the
file counts as malformed, though its version could be read.
-/

set_option autoImplicit false

namespace Parametric

open Ron (Form)

namespace DocumentFile

/-- The version of a file, whatever else is stored in it. -/
def versionSchema (kind : String) : Ron.Schema Nat :=
  .record kind (.required "version" (.natural 32))

/-- A text is a record, by any name or none, and its version is this one. -/
def Bears (text : String) (version : Nat) : Prop :=
  ∃ kind, (versionSchema kind).read? text = some version

def documentSchema : Ron.Schema SavedDocument :=
  .record "ProjectFile" (.required "document" SavedDocument.schema)

theorem version_apart (key : String) (form : Form)
    (listed : [("version", Form.natural 32)].lookup key = some form) :
    [("document", SavedDocument.schema.form)].lookup key = none := by
  have member := Ron.Reader.mem_of_lookup listed
  cases List.mem_singleton.mp member
  rfl

theorem document_regular :
    ∀ field ∈ [("document", SavedDocument.schema.form)], field.2.Regular :=
  Form.regular_of_fieldsRegular _ (by decide +kernel)

theorem decode_eq_some_iff {found : List (String × Ron.Value)} {file : DocumentFile} :
    schema.decode (.record none found) = some file ↔
      (found.lookup "version").bind (Ron.Schema.natural 32).decode = some file.version ∧
      (found.lookup "document").bind SavedDocument.schema.decode = some file.document := by
  constructor
  · intro decoded
    obtain ⟨make, made, decoded⟩ := Option.bind_eq_some_iff.mp decoded
    obtain ⟨document, second, decoded⟩ := Option.bind_eq_some_iff.mp decoded
    cases decoded
    obtain ⟨version, first, made⟩ := Option.bind_eq_some_iff.mp made
    cases made
    exact ⟨first, second⟩
  · rintro ⟨first, second⟩
    refine Option.bind_eq_some_iff.mpr ⟨DocumentFile.mk file.version, ?_, ?_⟩
    · exact Option.bind_eq_some_iff.mpr ⟨file.version, first, rfl⟩
    · exact Option.bind_eq_some_iff.mpr ⟨file.document, second, rfl⟩

theorem read?_of_document {text : String} {n : Nat} {d : SavedDocument} (bears : Bears text n)
    (read : documentSchema.read? text = some d) : schema.read? text = some ⟨n, d⟩ := by
  obtain ⟨kind, version⟩ := bears
  obtain ⟨v, first, decoded⟩ := Option.bind_eq_some_iff.mp version
  obtain ⟨w, second, decoded'⟩ := Option.bind_eq_some_iff.mp read
  have number : ∀ field ∈ [("version", Form.natural 32)], field.2.Regular :=
    Form.regular_of_fieldsRegular _ rfl
  obtain ⟨found, others, all, rfl, rfl, whole, versions, documents⟩ :=
    Ron.read?_join version_apart number document_regular first second
  refine Option.bind_eq_some_iff.mpr ⟨_, whole, decode_eq_some_iff.mpr ⟨?_, ?_⟩⟩
  · rw [versions "version" rfl]
    exact decoded
  · rw [documents "document" rfl]
    exact decoded'

theorem document_of_read? {text : String} {file : DocumentFile}
    (read : schema.read? text = some file) : documentSchema.read? text = some file.document := by
  obtain ⟨v, whole, decoded⟩ := Option.bind_eq_some_iff.mp read
  have numbers : ∀ field ∈ [("version", Form.natural 32)], ∃ width ≤ 64,
      field.2 = .natural width := by
    intro field member
    cases List.mem_singleton.mp member
    exact ⟨32, by decide, rfl⟩
  obtain ⟨all, found, rfl, part, same⟩ := Ron.read?_select version_apart numbers whole
  have document := (decode_eq_some_iff.mp decoded).2
  rw [← same "document" SavedDocument.schema.form rfl] at document
  exact Option.bind_eq_some_iff.mpr ⟨_, part, document⟩

/-- Where the version of a file is read, the file is read exactly if its document is. -/
theorem read?_eq {text : String} {n : Nat} (bears : Bears text n) :
    schema.read? text = (documentSchema.read? text).map (⟨n, ·⟩) := by
  cases document : documentSchema.read? text with
  | some d => exact read?_of_document bears document
  | none =>
    refine Option.eq_none_iff_forall_ne_some.mpr fun file read => ?_
    rw [document_of_read? read] at document
    cases document

end DocumentFile

namespace SavedDocument

/-- One version is read, as there was none before it. -/
theorem unsupported_iff {n : Nat} : (formatVersion < n || n = 0) = true ↔ n ≠ formatVersion := by
  simp only [Bool.or_eq_true, decide_eq_true_eq]
  unfold formatVersion
  omega

/-- A file of another version is never loaded. It is reported with its version exactly if its
document can be read as documents are stored now, and it is malformed otherwise. -/
theorem ofFile_otherVersion {bytes : ByteArray} {text : String} {n : Nat}
    (decoded : String.fromUTF8? bytes = some text) (bears : DocumentFile.Bears text n)
    (other : n ≠ formatVersion) :
    ofFile bytes =
      if (DocumentFile.documentSchema.read? text).isSome then .error (.unsupportedVersion n)
      else .error .malformed := by
  rw [ofFile, decoded]
  dsimp only
  rw [ofFileText, DocumentFile.read?_eq bears]
  cases DocumentFile.documentSchema.read? text with
  | none => rfl
  | some d => exact if_pos (unsupported_iff.mpr other)

theorem ofFile_otherVersion_empty :
    let text := (DocumentFile.toRon ⟨9, ⟨[], []⟩⟩).write .spread
    DocumentFile.Bears text 9 ∧ 9 ≠ formatVersion ∧
      ofFile text.toUTF8 = .error (.unsupportedVersion 9) := by
  intro text
  have bears : DocumentFile.Bears text 9 := ⟨"ProjectFile", by decide +kernel⟩
  have read : DocumentFile.documentSchema.read? text = some ⟨[], []⟩ := by decide +kernel
  refine ⟨bears, by decide, ?_⟩
  rw [ofFile_otherVersion (fromUTF8?_toUTF8 text) bears (by decide), read]
  rfl

/-- A file of version 2 whose document is laid out in another way is not reported as such. -/
theorem foreignLayout_malformed :
    let text := "(version:2,document:())"
    DocumentFile.Bears text 2 ∧ 2 ≠ formatVersion ∧ ofFile text.toUTF8 = .error .malformed ∧
      ofFile text.toUTF8 ≠ .error (.unsupportedVersion 2) := by
  intro text
  have bears : DocumentFile.Bears text 2 := ⟨"ProjectFile", by decide +kernel⟩
  refine ⟨bears, by decide, ?_⟩
  decide +kernel

end SavedDocument

end Parametric
