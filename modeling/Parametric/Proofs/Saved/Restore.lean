import Parametric.Proofs.Feature.Tree
import Parametric.Proofs.Parameters.Fixpoint
import Parametric.Saved.Form
/-! A document is restored from what is stored of it.

The order of the features, the clamped cutoff, the datum planes and the failures of
formulas are not stored but made anew. They come out as they were because the feature
tree is well formed and the parameters are evaluated.
-/

set_option autoImplicit false

namespace Parametric

theorem eraseDups_of_nodup {ids : List OpId} (distinct : ids.Nodup) : ids.eraseDups = ids := by
  induction ids with
  | nil => rfl
  | cons id rest ih =>
    obtain ⟨absent, distinct⟩ := List.nodup_cons.mp distinct
    have kept : rest.filter (fun other => !other == id) = rest := by
      apply List.filter_eq_self.mpr
      intro other member
      simp only [Bool.not_eq_true', beq_eq_false_iff_ne]
      rintro rfl
      exact absent member
    rw [List.eraseDups_cons, kept, ih distinct]

@[simp] theorem Sketch.restore_save (s : Sketch) : s.save.restore = s := by
  simp [Sketch.save, SavedSketch.restore]

namespace Studio

theorem withDatumPlanes_of_contains {planes : SortedMap PlaneId Plane}
    (datumPlanes : ∀ d : DatumPlane, planes.contains d.id = true) :
    withDatumPlanes planes = planes := by
  simp [withDatumPlanes, DatumPlane.all, datumPlanes]

namespace WellFormed

variable {s : Studio}

theorem nodes_save (wellFormed : s.WellFormed) :
    s.save.nodes = s.order.filterMap fun id => (s.nodes.get? id).map (id, ·) := by
  rw [Studio.save, eraseDups_of_nodup wellFormed.distinct]

theorem order_restored (wellFormed : s.WellFormed) : s.save.nodes.map (·.1) = s.order := by
  rw [wellFormed.nodes_save, List.map_filterMap]
  have present : ∀ id ∈ s.order,
      ((s.nodes.get? id).map (id, ·)).map (·.1) = some id := by
    intro id member
    obtain ⟨node, found⟩ := SortedMap.contains_iff.mp (wellFormed.mem_order.mp member)
    simp [found]
  rw [List.filterMap_congr present, List.filterMap_some]

theorem nodes_restored (wellFormed : s.WellFormed) : SortedMap.ofList s.save.nodes = s.nodes := by
  apply SortedMap.eq_of_get?
  intro id
  apply Option.ext
  intro node
  have distinct : (s.save.nodes.map (·.1)).Nodup := wellFormed.order_restored ▸ wellFormed.distinct
  rw [SortedMap.get?_ofList distinct, wellFormed.nodes_save, List.mem_filterMap]
  constructor
  · rintro ⟨other, member, mapped⟩
    obtain ⟨node, found, same⟩ := Option.map_eq_some_iff.mp mapped
    cases same
    exact found
  · intro found
    have member := wellFormed.mem_order.mpr (SortedMap.contains_of_get? found)
    exact ⟨id, member, by rw [found, Option.map_some]⟩

theorem restore_save (wellFormed : s.WellFormed) : s.save.restore = s := by
  have sketches : SortedMap.ofList (s.save.sketches.map fun e => (e.1, e.2.restore)) =
      s.sketches := by
    simp [Studio.save, Function.comp_def]
  have planes : withDatumPlanes (.ofList s.save.planes) = s.planes := by
    rw [Studio.save, SortedMap.ofList_entries]
    exact withDatumPlanes_of_contains wellFormed.datumPlanes
  have cutoff : s.cutoff.map (min · s.order.length) = s.cutoff := by
    cases position : s.cutoff with
    | none => rfl
    | some reached => rw [Option.map_some, Nat.min_eq_left (wellFormed.cutoff reached position)]
  rw [SavedStudio.restore, Studio.setCutoff, wellFormed.nodes_restored, wellFormed.order_restored,
    sketches, planes]
  change ({ s with cutoff := s.cutoff.map (min · s.order.length) } : Studio) = s
  rw [cutoff]

end WellFormed

end Studio

/-- A document with well-formed feature trees and evaluated parameters is restored from what is
stored of it. -/
theorem Document.restore_save {d : Document} (wellFormed : ∀ s ∈ d.studios, s.WellFormed)
    (evaluated : Parameters.ofList d.params.list = d.params) (spare : StudioId) :
    d.save.restore spare = d := by
  have studios : d.save.restoredStudios = d.studios := by
    have each : ∀ s ∈ d.studios, { s.save.restore with id := s.id } = s := by
      intro s member
      rw [(wellFormed s member).restore_save]
    rw [SavedDocument.restoredStudios, Document.save, List.map_map]
    exact (List.map_congr_left each).trans (List.map_id' d.studios)
  have nonempty : d.save.restoredStudios ≠ [] := studios ▸ d.nonempty
  rw [SavedDocument.restore, dif_pos nonempty]
  simp only [studios]
  change (⟨d.studios, Parameters.ofList d.params.list, d.nonempty⟩ : Document) = d
  rw [evaluated]

end Parametric
