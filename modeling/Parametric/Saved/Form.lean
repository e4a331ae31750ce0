import Parametric.Document
/-! What is stored of a document.

Maps are stored as lists of entries by increasing key, and the features of a
studio in the order they were made. Failures of formulas are not stored, since
restoring evaluates all formulas again.
-/

set_option autoImplicit false

namespace Parametric

structure SavedSketch where
  id : SketchId
  name : String
  plane : PlaneId
  primitives : List (PrimitiveId × Primitive)
  solved : List (PrimitiveId × Vec2)
  deriving BEq, DecidableEq

def Sketch.save (s : Sketch) : SavedSketch :=
  ⟨s.id, s.name, s.plane, s.primitives.entries, s.solved.entries⟩

/-- Of two entries with one key the later counts. -/
def SavedSketch.restore (s : SavedSketch) : Sketch :=
  ⟨s.id, s.name, s.plane, .ofList s.primitives, .ofList s.solved⟩

structure SavedStudio where
  id : StudioId
  name : String
  nodes : List (OpId × Node)
  sketches : List (SketchId × SavedSketch)
  planes : List (PlaneId × Plane)
  cutoff : Option Nat
  modified : Option Timestamp
  deriving BEq, DecidableEq

/-- A feature that the order lists more than once is stored at its first place. -/
def Studio.save (s : Studio) : SavedStudio :=
  { id := s.id
    name := s.name
    nodes := s.order.eraseDups.filterMap fun id => (s.nodes.get? id).map (id, ·)
    sketches := s.sketches.entries.map fun e => (e.1, e.2.save)
    planes := s.planes.entries
    cutoff := s.cutoff
    modified := s.modified }

/-- The datum planes are added if they are missing, and the cutoff is moved to the end of
the order if it lies beyond. -/
def SavedStudio.restore (s : SavedStudio) : Studio :=
  Studio.setCutoff
    { id := s.id
      name := s.name
      nodes := .ofList s.nodes
      order := s.nodes.map (·.1)
      sketches := .ofList (s.sketches.map fun e => (e.1, e.2.restore))
      planes := Studio.withDatumPlanes (.ofList s.planes)
      cutoff := none
      modified := s.modified }
    s.cutoff

def Parameters.save (params : Parameters) : List Parameter :=
  params.list

structure SavedDocument where
  studios : List (StudioId × SavedStudio)
  params : List Parameter
  deriving BEq, DecidableEq

def Document.save (d : Document) : SavedDocument :=
  ⟨d.studios.map fun s => (s.id, s.save), d.params.save⟩

namespace SavedDocument

/-- The key of an entry becomes the identifier of its studio. -/
def restoredStudios (d : SavedDocument) : List Studio :=
  d.studios.map fun e => { e.2.restore with id := e.1 }

/-- A document without studios is given an empty one with the fresh identifier. -/
def restore (d : SavedDocument) (fresh : StudioId) : Document :=
  if nonempty : d.restoredStudios ≠ [] then
    ⟨d.restoredStudios, Parameters.ofList d.params, nonempty⟩
  else { Document.new fresh with params := Parameters.ofList d.params }

end SavedDocument

end Parametric
