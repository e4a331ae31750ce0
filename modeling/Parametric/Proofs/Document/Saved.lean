import Parametric.Proofs.Document.Edit
import Parametric.Proofs.Saved.Encoding
import Parametric.Proofs.Saved.Restore
/-! Saving a document and loading it again gives the document back.

What edits leave is restored from its stored form, and the stored form is read back from
the file.
-/

set_option autoImplicit false

namespace Parametric.Document

theorem Kept.restore_save {ops : List OpId} {parameters : List ParameterId} {d : Document}
    (kept : d.Kept ops parameters) (spare : StudioId) : d.save.restore spare = d :=
  d.restore_save (fun s member => (kept.studios s member).toWellFormed) kept.params.evaluated spare

/-- Edits of a new document, in any order and with any arguments, leave a document that is
restored from its stored form, values and failures of formulas included. If it fits into a
file, it is loaded from its file. All that is asked of the edits is that each feature and each
parameter they make has an identifier of its own. -/
theorem saved_restores (fresh : StudioId) (edits : List Edit) (own : OwnIds edits)
    (spare : StudioId) :
    (after fresh edits).save.restore spare = after fresh edits ∧
    ((after fresh edits).Storable →
      (SavedDocument.ofFile (after fresh edits).fileText.toUTF8).map (·.restore spare) =
        .ok (after fresh edits)) := by
  obtain ⟨ops, parameters, kept⟩ := exists_kept fresh edits own
  have restored := kept.restore_save spare
  constructor
  · exact restored
  · intro storable
    rw [SavedDocument.ofFile_fileText storable, Except.map, restored]

/-- A rolled back sketch with a dangling extrusion, a formula that fails and keeps its last
value, and two parameters on a cycle. -/
def staleOnCycle : List Edit :=
  [.parameters (.add (Id.ofNat 21) "width" "3" (some "mm")),
    .parameters (.add (Id.ofNat 22) "depth" "width * 2" none),
    .parameters (.remove (Id.ofNat 21)),
    .parameters (.add (Id.ofNat 23) "a" "1" none),
    .parameters (.add (Id.ofNat 24) "b" "a + 0.5" none),
    .parameters (.setExpression (Id.ofNat 23) "b"),
    .studio (Id.ofNat 7) (.addSketch (Id.ofNat 10) (Id.ofNat 1) "Sketch 1" none),
    .studio (Id.ofNat 7) (.addExtrude (Id.ofNat 2) "Extrude 1" (.face ⟨Id.ofNat 1, 5⟩) .symmetric
      ⟨6.0, some "depth", some (Id.ofNat 22)⟩),
    .studio (Id.ofNat 7) (.addSketch (Id.ofNat 11) (Id.ofNat 3) "Sketch \"2\"" none),
    .studio (Id.ofNat 7) (.editSketch (Id.ofNat 11) fun s =>
      (s.addPoint (Id.ofNat 12) (0.0 / 0.0) (-0.1)).setSolved [(Id.ofNat 12, ⟨1.0 / 0.0, 1.0e-7⟩)]),
    .studio (Id.ofNat 7) (.rollbackTo (Id.ofNat 2)),
    .studio (Id.ofNat 7) (.delete (Id.ofNat 1)),
    .touch (Id.ofNat 7) ⟨1700000000, 250000000⟩,
    .addStudio (Id.ofNat 8) "Lid"]

theorem saved_restores_staleOnCycle :
    OwnIds staleOnCycle ∧
    (after (Id.ofNat 7) staleOnCycle).Storable ∧
    ((after (Id.ofNat 7) staleOnCycle).params.get? (Id.ofNat 22)).map (·.value) = some 6.0 ∧
    (after (Id.ofNat 7) staleOnCycle).params.errors.keys = [Id.ofNat 23, Id.ofNat 24] ∧
    (after (Id.ofNat 7) staleOnCycle).save.restore (Id.ofNat 9) =
      after (Id.ofNat 7) staleOnCycle ∧
    (SavedDocument.ofFile (after (Id.ofNat 7) staleOnCycle).fileText.toUTF8).map
      (·.restore (Id.ofNat 9)) = .ok (after (Id.ofNat 7) staleOnCycle) := by
  have own : OwnIds staleOnCycle := ⟨by decide, by decide⟩
  have storable : (after (Id.ofNat 7) staleOnCycle).Storable := by decide +kernel
  obtain ⟨restored, loaded⟩ := saved_restores (Id.ofNat 7) staleOnCycle own (Id.ofNat 9)
  exact ⟨own, storable, by decide +kernel, by decide +kernel, restored, loaded storable⟩

end Parametric.Document
