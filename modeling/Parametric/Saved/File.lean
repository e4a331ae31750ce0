import Parametric.Saved.Encoding
import Parametric.Saved.Schema
/-! Document files: a format version and the stored form of a document.

Writing never fails, since every stored form has a text.
-/

set_option autoImplicit false

namespace Parametric

/-- The version that is written, and the last one that is read. -/
def formatVersion : Nat := 1

/-- What the reader of the text says of a malformed one is left out. -/
inductive FileError where
  /-- The file is no text, or the text is not the stored form of a document. -/
  | malformed
  | unsupportedVersion (found : Nat)
  deriving DecidableEq, Repr

def FileError.message : FileError → String
  | malformed => "Deserialization error"
  | unsupportedVersion found =>
    "Unsupported file version " ++ toString found ++
      " (supported: " ++ toString formatVersion ++ ")"

structure DocumentFile where
  version : Nat
  document : SavedDocument
  deriving BEq, DecidableEq

namespace DocumentFile

def toRon (file : DocumentFile) : Ron.Value :=
  .record none [("version", .natural file.version), ("document", file.document.toRon)]

def schema : Ron.Schema DocumentFile :=
  .record "ProjectFile" <| DocumentFile.mk
    <$> .required "version" (.natural 32) <*> .required "document" SavedDocument.schema

end DocumentFile

def Document.fileText (d : Document) : String :=
  (DocumentFile.toRon ⟨formatVersion, d.save⟩).write .spread

namespace SavedDocument

/-- Read the text of a file. The document is read before the version is looked at. -/
def ofFileText (text : String) : Except FileError SavedDocument :=
  match DocumentFile.schema.read? text with
  | none => .error .malformed
  | some file =>
    if formatVersion < file.version || file.version = 0 then
      .error (.unsupportedVersion file.version)
    else .ok file.document

def ofFile (bytes : ByteArray) : Except FileError SavedDocument :=
  match String.fromUTF8? bytes with
  | none => .error .malformed
  | some text => ofFileText text

end SavedDocument

end Parametric
