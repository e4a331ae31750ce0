import Parametric.Proofs.Document.Equality
import Parametric.Proofs.Session.Run
/-! What a commit records.

A commit compares the outcome of its edit with the present document, and each studio of it
with the studio it was. Both comparisons take numbers as numbers: a document that holds a
NaN is recorded even if nothing was edited, and no edit of the sign of a zero is recorded.
-/

set_option autoImplicit false

namespace Parametric.Session

/-- A studio is what it was before, up to the signs of zeros. -/
def Untouched (before : Document) (u : Studio) : Prop :=
  ∃ w, before.studio? u.id = some w ∧ Alike w u

/-- One snapshot is pushed and what was undone is forgotten. The edited studios are stamped, and
nothing but the history changes. -/
structure Pushed (s : Session) (now : Timestamp) (next : Document) (t : Session) : Prop where
  past : t.history.past =
    (s.document :: s.history.past).take (s.history.limit.getD (s.history.past.length + 1))
  future : t.history.future = []
  params : t.document.params = next.params
  studios : List.Forall₂ (fun u v => Untouched s.document u ∧ v = u ∨
    ¬ Untouched s.document u ∧ v = u.touch now) next.studios t.document.studios
  frame : { t with history := s.history } = s
  limit : t.history.limit = s.history.limit

section

variable {s : Session} {now : Timestamp} {next : Document}

theorem studio?_beq_iff {before : Document} {u : Studio} :
    (before.studio? u.id == some u) = true ↔ Untouched before u := by
  unfold Untouched
  cases before.studio? u.id with
  | none => simp
  | some w =>
    rw [Option.some_beq_some, beq_iff_alike]
    simp

theorem stamp_studios (now : Timestamp) (before next : Document) :
    List.Forall₂ (fun u v => Untouched before u ∧ v = u ∨ ¬ Untouched before u ∧ v = u.touch now)
      next.studios (stamp now before next).studios := by
  change List.Forall₂ _ _ (next.studios.map _)
  rw [List.forall₂_map_right_iff, List.forall₂_same]
  intro u _
  rw [← studio?_beq_iff]
  split <;> simp_all

theorem record_of_alike (alike : Alike next s.document) : s.record now next = s := by
  rw [record, if_pos (beq_iff_alike.mpr alike)]

theorem record_of_not_alike (changed : ¬ Alike next s.document) :
    s.Pushed now next (s.record now next) := by
  rw [record, if_neg fun same => changed (beq_iff_alike.mp same)]
  obtain ⟨⟨past, present, future, limit⟩, selection, settings⟩ := s
  have stamped := stamp_studios now present next
  cases limit with
  | none => exact ⟨by simp [History.push, History.trim, document], rfl, rfl, stamped, rfl, rfl⟩
  | some kept => exact ⟨rfl, rfl, rfl, stamped, rfl, rfl⟩

end

/-- A commit whose edit succeeds leaves the session as it is if the outcome is the present
document up to the signs of zeros and neither holds a NaN, and otherwise pushes one snapshot. -/
theorem commit_records {α : Type} (s : Session) (now : Timestamp)
    (edit : Document → Except SessionError (α × Document)) {answer : α} {next : Document}
    (edited : edit s.document = .ok (answer, next)) :
    ∃ t, s.commit now edit = .ok (answer, t) ∧ (Alike next s.document → t = s) ∧
      (¬ Alike next s.document → s.Pushed now next t) := by
  refine ⟨s.record now next, ?_, record_of_alike, record_of_not_alike⟩
  rw [commit, edited]
  rfl

def undoneSuppression (x : Float) : List (Timestamp × Command) :=
  [(⟨0, 0⟩, .addStudio (Id.ofNat 5)),
    (⟨1, 0⟩, .createSketch (Id.ofNat 1) (Id.ofNat 10) (Id.ofNat 2) none),
    (⟨2, 0⟩, .editSketch (Id.ofNat 1) (Id.ofNat 10) fun k => .ok (k.addPoint (Id.ofNat 20) x 0.0)),
    (⟨3, 0⟩, .setSuppressed (Id.ofNat 1) (Id.ofNat 2) true),
    (⟨4, 0⟩, .undo)]

theorem commit_records_renamed :
    let s := after (Id.ofNat 1) .standard (undoneSuppression 1.0)
    let renamed := s.document.changeStudio (Id.ofNat 5) fun u => { u with name := "B" }
    s.history.future.length = 1 ∧ s.commit ⟨5, 0⟩ (fun d => .ok ((), d)) = .ok ((), s) ∧
      ∃ t, s.commit ⟨5, 0⟩ (fun _ => .ok ((), renamed)) = .ok ((), t) ∧
        s.Pushed ⟨5, 0⟩ renamed t ∧
        t.document.studios.map (·.modified) = [some ⟨2, 0⟩, some ⟨5, 0⟩] := by
  intro s renamed
  refine ⟨by decide +kernel, ?_, ?_⟩
  · obtain ⟨t, committed, kept, _⟩ := commit_records s ⟨5, 0⟩ (fun d => .ok ((), d)) rfl
    have alike : Alike s.document s.document := alike_self_iff.mpr (by decide +kernel)
    rw [committed, kept alike]
  · obtain ⟨t, committed, _, pushed⟩ :=
      commit_records s ⟨5, 0⟩ (fun _ => .ok ((), renamed)) rfl
    have changed : ¬ Alike renamed s.document := by decide +kernel
    have stamps : (s.commit ⟨5, 0⟩ fun _ => .ok ((), renamed)).map
        (·.2.document.studios.map (·.modified)) = .ok [some ⟨2, 0⟩, some ⟨5, 0⟩] := by
      decide +kernel
    rw [committed] at stamps
    exact ⟨t, committed, pushed changed, Except.ok.inj stamps⟩

/-- With a NaN for a coordinate, deleting a feature that is not there forgets what was undone and
stamps the studio. With a zero, moving the point to the negative zero is not recorded. -/
theorem undoneSuppression_miscounted :
    let s := after (Id.ofNat 1) .standard (undoneSuppression (0.0 / 0.0))
    let z := after (Id.ofNat 1) .standard (undoneSuppression 0.0)
    let move (k : Sketch) := k.movePoint (Id.ofNat 20) (-0.0) 0.0
    s.document.hasOp (Id.ofNat 3) = false ∧ s.history.future.length = 1 ∧
    (s.deleteOp ⟨5, 0⟩ (Id.ofNat 1) (Id.ofNat 3)).map (fun o =>
      (o.1, o.2.history.past, o.2.history.future, o.2.document.studios.map (·.modified))) =
        .ok (false, s.document :: s.history.past, [], [some ⟨5, 0⟩, some ⟨0, 0⟩]) ∧
    (∃ k ∈ z.document.firstStudio.sketches.values, (move k).isOk ∧ move k ≠ .ok k) ∧
    (z.editSketch ⟨5, 0⟩ (Id.ofNat 1) (Id.ofNat 10) fun k => (move k).map ((), ·)).map
      (·.2.history) = .ok z.history := by
  decide +kernel

end Parametric.Session
