import Parametric.Proofs.Parameters.Edit
import Parametric.Proofs.Saved.Encoding
import Parametric.Proofs.Saved.Restore
/-! What loading takes from a file.

The lists of a file can say more than the maps they become. Loading turns them into maps
without a check: of two entries with one key the later stands, but the order of the features
lists the key twice, and identifiers, names and references are taken as they are.
-/

set_option autoImplicit false

namespace Parametric

open SortedMap (standing standing_map)

/-! ## Sketches -/

/-- References name points of the sketch, and solved positions belong to its primitives. -/
structure Sketch.Closed (k : Sketch) : Prop where
  references : ∀ id p, k.get? id = some p → ∀ r ∈ p.references,
    ∃ q, k.get? r = some q ∧ q.isPoint = true
  solved : ∀ id, k.solved.contains id = true → k.primitives.contains id = true

/-- The same of the stored lists; an entry with a later one of its key does not count. -/
def SavedSketch.Closed (k : SavedSketch) : Prop :=
  (∀ e ∈ standing k.primitives, ∀ r ∈ e.2.references,
    ∃ q ∈ standing k.primitives, q.1 = r ∧ q.2.isPoint = true) ∧
  ∀ id ∈ k.solved.map (·.1), id ∈ k.primitives.map (·.1)

instance : DecidablePred SavedSketch.Closed := fun _ => inferInstanceAs (Decidable (_ ∧ _))

theorem SavedSketch.restore_closed_iff {k : SavedSketch} : k.restore.Closed ↔ k.Closed := by
  have found {id : PrimitiveId} {p : Primitive} :
      k.restore.get? id = some p ↔ (id, p) ∈ standing k.primitives := SortedMap.get?_ofList_iff
  constructor
  · intro closed
    constructor
    · rintro ⟨id, p⟩ member r refers
      obtain ⟨q, there, point⟩ := closed.references id p (found.mpr member) r refers
      exact ⟨(r, q), found.mp there, rfl, point⟩
    · intro id solved
      exact SortedMap.contains_ofList.mp (closed.solved id (SortedMap.contains_ofList.mpr solved))
  · rintro ⟨references, solved⟩
    constructor
    · intro id p there r refers
      obtain ⟨⟨_, q⟩, member, rfl, point⟩ := references (id, p) (found.mp there) r refers
      exact ⟨q, found.mpr member, point⟩
    · intro id positioned
      exact SortedMap.contains_ofList.mpr (solved id (SortedMap.contains_ofList.mp positioned))

/-! ## Studios -/

/-- The order lists each feature once, and each is kept under its own identifier. -/
structure Studio.Indexed (s : Studio) : Prop where
  distinct : s.order.Nodup
  keys : s.order.Perm s.nodes.keys
  ids : ∀ id node, s.nodes.get? id = some node → node.op.id = id

def SavedStudio.Indexed (s : SavedStudio) : Prop :=
  (s.nodes.map (·.1)).Nodup ∧ ∀ e ∈ s.nodes, e.2.op.id = e.1

def Studio.SketchesClosed (s : Studio) : Prop :=
  ∀ id k, s.sketches.get? id = some k → k.Closed

def SavedStudio.SketchesClosed (s : SavedStudio) : Prop :=
  ∀ e ∈ standing s.sketches, e.2.Closed

instance : DecidablePred SavedStudio.Indexed := fun _ => inferInstanceAs (Decidable (_ ∧ _))

instance : DecidablePred SavedStudio.SketchesClosed := fun s =>
  inferInstanceAs (Decidable (∀ e ∈ standing s.sketches, e.2.Closed))

/-- What holds of a loaded studio whatever the file lists. -/
structure Studio.Usable (s : Studio) : Prop where
  members : ∀ id, id ∈ s.order ↔ s.contains id = true
  cutoff : ∀ position, s.cutoff = some position → position ≤ s.order.length
  datumPlanes : ∀ d : DatumPlane, s.planes.contains d.id = true

theorem Studio.contains_withDatumPlanes (planes : SortedMap PlaneId Plane) (d : DatumPlane) :
    (withDatumPlanes planes).contains d.id = true := by
  -- Each step adds its plane and drops none.
  have from' (all : List DatumPlane) : ∀ planes : SortedMap PlaneId Plane,
      d ∈ all ∨ planes.contains d.id = true →
        (all.foldl (fun planes d =>
          if planes.contains d.id then planes else planes.insert d.id d.plane) planes).contains
            d.id = true := by
    induction all with
    | nil => exact fun planes either => either.resolve_left List.not_mem_nil
    | cons e rest ih =>
      intro planes either
      apply ih
      rcases either with listed | present
      · rcases List.mem_cons.mp listed with rfl | later
        · right
          dsimp only
          split
          · assumption
          · exact SortedMap.contains_insert.mpr (.inl rfl)
        · exact .inl later
      · right
        dsimp only
        split
        · exact present
        · exact SortedMap.contains_insert.mpr (.inr present)
  exact from' DatumPlane.all planes (.inl (by cases d <;> decide))

namespace SavedStudio

variable {s : SavedStudio}

theorem restore_indexed_iff : s.restore.Indexed ↔ s.Indexed := by
  constructor
  · intro indexed
    have distinct : (s.nodes.map (·.1)).Nodup := indexed.distinct
    refine ⟨distinct, fun e member => indexed.ids e.1 e.2 ?_⟩
    exact (SortedMap.get?_ofList distinct).mpr member
  · rintro ⟨distinct, ids⟩
    constructor
    · exact distinct
    · exact SortedMap.perm_keys distinct fun id => SortedMap.contains_ofList.symm
    · intro id node found
      exact ids (id, node) ((SortedMap.get?_ofList distinct).mp found)

theorem restore_sketchesClosed_iff : s.restore.SketchesClosed ↔ s.SketchesClosed := by
  have found {id : SketchId} {k : Sketch} : s.restore.sketches.get? id = some k ↔
      ∃ e ∈ standing s.sketches, (e.1, e.2.restore) = (id, k) := by
    rw [← List.mem_map, ← standing_map]
    exact SortedMap.get?_ofList_iff
  constructor
  · intro closed e member
    exact SavedSketch.restore_closed_iff.mp (closed e.1 e.2.restore (found.mpr ⟨e, member, rfl⟩))
  · intro closed id k there
    obtain ⟨e, member, same⟩ := found.mp there
    cases same
    exact SavedSketch.restore_closed_iff.mpr (closed e member)

theorem restore_usable (s : SavedStudio) : s.restore.Usable where
  members id := SortedMap.contains_ofList.symm
  cutoff position cutoff := by
    obtain ⟨_, _, rfl⟩ := Option.map_eq_some_iff.mp cutoff
    exact Nat.min_le_right _ _
  datumPlanes := Studio.contains_withDatumPlanes _

end SavedStudio

/-! ## Documents -/

namespace SavedDocument

variable {saved : SavedDocument} {fresh : StudioId}

theorem restore_params : (saved.restore fresh).params = Parameters.ofList saved.params := by
  unfold restore
  split <;> rfl

theorem forall_restore {P : Studio → Prop} (new : ∀ id name, P (.new id name)) :
    (∀ s ∈ (saved.restore fresh).studios, P s) ↔
      ∀ e ∈ saved.studios, P { e.2.restore with id := e.1 } := by
  unfold restore
  split
  · exact List.forall_mem_map
  · next none =>
    have empty : saved.studios = [] := List.map_eq_nil_iff.mp (not_not.mp none)
    rw [empty]
    exact ⟨fun _ _ listed => (List.not_mem_nil listed).elim,
      fun _ s only => List.mem_singleton.mp only ▸ new fresh _⟩

theorem restore_studioIds_nodup_iff :
    ((saved.restore fresh).studios.map (·.id)).Nodup ↔ (saved.studios.map (·.1)).Nodup := by
  unfold restore
  split
  · change ((saved.restoredStudios.map _).Nodup ↔ _)
    rw [restoredStudios, List.map_map]
    rfl
  · next none =>
    have empty : saved.studios = [] := List.map_eq_nil_iff.mp (not_not.mp none)
    rw [empty]
    exact iff_of_true (List.nodup_singleton _) List.nodup_nil

end SavedDocument

/-- A loaded document has all the features that its orders list and no others, cutoffs within
the orders, and the datum planes. Everything else that edits keep it has exactly if the lists
of the file have it already. -/
theorem load_consistent_iff (bytes : ByteArray) (fresh : StudioId) {d : Document}
    (loaded : (SavedDocument.ofFile bytes).map (·.restore fresh) = .ok d) :
    ∃ saved, SavedDocument.ofFile bytes = .ok saved ∧
      (∀ s ∈ d.studios, s.Usable) ∧
      ((∀ s ∈ d.studios, s.Indexed) ↔ ∀ e ∈ saved.studios, e.2.Indexed) ∧
      ((∀ s ∈ d.studios, s.SketchesClosed) ↔ ∀ e ∈ saved.studios, e.2.SketchesClosed) ∧
      ((d.studios.map (·.id)).Nodup ↔ (saved.studios.map (·.1)).Nodup) ∧
      ((∀ p ∈ d.params.list, Token.isName p.name = true) ↔
        ∀ p ∈ saved.params, Token.isName p.name = true) ∧
      (Parameters.DistinctNames d.params.list ↔ Parameters.DistinctNames saved.params) ∧
      (Parameters.DistinctIds d.params.list ↔ Parameters.DistinctIds saved.params) := by
  obtain ⟨saved, read, rfl⟩ := ok_of_map loaded
  have new (id : StudioId) (name : String) := (Studio.new_kept id name).toWellFormed
  have names (list : List Parameter) : (∀ p ∈ list, Token.isName p.name = true) ↔
      ∀ name ∈ list.map (·.name), Token.isName name = true := by
    rw [List.forall_mem_map]
  refine ⟨saved, read, ?_, ?_, ?_, SavedDocument.restore_studioIds_nodup_iff, ?_, ?_, ?_⟩
  · rw [SavedDocument.forall_restore fun id name =>
      ⟨fun _ => (new id name).mem_order, (new id name).cutoff, (new id name).datumPlanes⟩]
    intro e _
    have usable := e.2.restore_usable
    exact ⟨usable.members, usable.cutoff, usable.datumPlanes⟩
  · rw [SavedDocument.forall_restore fun id name =>
      ⟨(new id name).distinct, (new id name).keys, (new id name).ids⟩]
    refine forall₂_congr fun e _ => ?_
    rw [← SavedStudio.restore_indexed_iff]
    exact ⟨fun h => ⟨h.distinct, h.keys, h.ids⟩, fun h => ⟨h.distinct, h.keys, h.ids⟩⟩
  · rw [SavedDocument.forall_restore fun id name => by intro _ _ found; cases found]
    exact forall₂_congr fun e _ => SavedStudio.restore_sketchesClosed_iff
  · rw [SavedDocument.restore_params, names, Parameters.names_ofList, ← names]
  · rw [SavedDocument.restore_params, Parameters.distinctNames_ofList]
  · rw [SavedDocument.restore_params, Parameters.distinctIds_ofList]

def lineSketch : SavedDocument where
  studios := [(Id.ofNat 11,
    { id := Id.ofNat 11
      name := "A"
      nodes := [(Id.ofNat 21, ⟨.new (Id.ofNat 21) "Sketch 1"
        (.sketch (Id.ofNat 41) DatumPlane.xy.id), []⟩)]
      sketches := [(Id.ofNat 41, ⟨Id.ofNat 41, "Sketch 1", DatumPlane.xy.id,
        [(Id.ofNat 1, ⟨.point 0.0 0.0, false⟩), (Id.ofNat 2, ⟨.point 1.0 0.5, false⟩),
          (Id.ofNat 3, ⟨.line (Id.ofNat 1) (Id.ofNat 2), true⟩)],
        [(Id.ofNat 2, ⟨1.0, 0.0⟩)]⟩)]
      planes := []
      cutoff := some 4
      modified := none })]
  params := [⟨Id.ofNat 51, "width", "3", 3.0, some "mm"⟩]

theorem load_consistent_iff_lineSketch :
    let d := lineSketch.restore (Id.ofNat 9)
    (SavedDocument.ofFile
      ((DocumentFile.toRon ⟨formatVersion, lineSketch⟩).write .spread).toUTF8).map
        (·.restore (Id.ofNat 9)) = .ok d ∧
    d.firstStudio.cutoff = some 1 ∧ (∀ s ∈ d.studios, s.Indexed) ∧
    (∀ s ∈ d.studios, s.SketchesClosed) ∧ (d.studios.map (·.id)).Nodup ∧
    (∀ p ∈ d.params.list, Token.isName p.name = true) ∧
    Parameters.DistinctNames d.params.list ∧ Parameters.DistinctIds d.params.list := by
  intro d
  have storable : ∀ e ∈ lineSketch.studios, e.2.Storable := by decide +kernel
  have read := SavedDocument.ofFile_write storable
  have loaded := congrArg (Except.map (·.restore (Id.ofNat 9))) read
  obtain ⟨saved, same, _, indexed, closed, studioIds, valid, names, ids⟩ :=
    load_consistent_iff _ (Id.ofNat 9) loaded
  cases read.symm.trans same
  exact ⟨loaded, by decide +kernel, indexed.mpr (by decide +kernel), closed.mpr (by decide +kernel),
    studioIds.mpr (by decide +kernel), valid.mpr (by decide +kernel),
    names.mpr (by decide +kernel), ids.mpr (by decide +kernel)⟩

/-- Two studios with one key. In the first, one feature is listed twice and once more under a
foreign identifier, and a line and a solved position are of no primitive that is there. Two
parameters have one identifier, and one name that is none. -/
def contradictory : SavedDocument where
  studios :=
    let node : Node :=
      ⟨.new (Id.ofNat 21) "B" (.boolean .union (Id.ofNat 31) (Id.ofNat 32)), []⟩
    [(Id.ofNat 11,
      { id := Id.ofNat 11
        name := "A"
        nodes := [(Id.ofNat 21, node), (Id.ofNat 21, node), (Id.ofNat 22, node)]
        sketches := [(Id.ofNat 41, ⟨Id.ofNat 41, "Sketch 1", DatumPlane.xy.id,
          [(Id.ofNat 3, ⟨.line (Id.ofNat 1) (Id.ofNat 2), false⟩)],
          [(Id.ofNat 4, ⟨1.0, 0.0⟩)]⟩)]
        planes := []
        cutoff := none
        modified := none }),
      (Id.ofNat 11, ⟨Id.ofNat 11, "B", [], [], [], none, none⟩)]
  params := [⟨Id.ofNat 51, "2x", "1", 1.0, none⟩, ⟨Id.ofNat 51, "2x", "2", 2.0, none⟩]

theorem contradictory_loaded :
    let d := contradictory.restore (Id.ofNat 9)
    let s := d.firstStudio
    (SavedDocument.ofFile
      ((DocumentFile.toRon ⟨formatVersion, contradictory⟩).write .spread).toUTF8).map
        (·.restore (Id.ofNat 9)) = .ok d ∧
    s.order = [Id.ofNat 21, Id.ofNat 21, Id.ofNat 22] ∧
    s.nodes.keys = [Id.ofNat 21, Id.ofNat 22] ∧
    (s.op? (Id.ofNat 22)).map (·.id) = some (Id.ofNat 21) ∧
    s.sketches.values.map (fun k =>
      (k.danglingReferences.length, k.primitives.keys, k.solved.keys)) =
        [(2, [Id.ofNat 3], [Id.ofNat 4])] ∧
    d.studios.map (·.id) = [Id.ofNat 11, Id.ofNat 11] ∧
    d.params.list.map (fun p => (p.id, p.name)) =
      [(Id.ofNat 51, "2x"), (Id.ofNat 51, "2x")] ∧ Token.isName "2x" = false := by
  intro d s
  have storable : ∀ e ∈ contradictory.studios, e.2.Storable := by decide +kernel
  have read := SavedDocument.ofFile_write storable
  have loaded := congrArg (Except.map (·.restore (Id.ofNat 9))) read
  exact ⟨loaded, by decide +kernel⟩

end Parametric
