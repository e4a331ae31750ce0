import Mathlib.Data.List.DropRight
import Mathlib.Logic.Function.Iterate
import Mathlib.Order.MinMax
import Parametric.History
/-! A history is a list of snapshots with a cursor.

Undo and redo move the cursor and leave the list alone. A push cuts the list off behind the
cursor, drops the oldest snapshots that the limit leaves no room for, and puts the new one at
the end. So the list never holds a snapshot that was not pushed, or one twice, and what is
missing was dropped by the limit or cut off by a push after an undo.
-/

set_option autoImplicit false

namespace Parametric.History

variable {α : Type}

inductive Step (α : Type) where
  | push (value : α)
  | undo
  | redo

def Step.apply (h : History α) : Step α → History α
  | push value => h.push value
  | undo => h.undo
  | redo => h.redo

def Step.pushes? : Step α → Option α
  | push value => some value
  | undo | redo => none

def run (h : History α) (steps : List (Step α)) : History α :=
  steps.foldl Step.apply h

/-- Snapshots, oldest first, with the position of the present one. -/
structure Timeline (α : Type) where
  snapshots : List α
  cursor : Nat
  deriving DecidableEq, Repr

def timeline (h : History α) : Timeline α :=
  ⟨h.past.reverse ++ h.present :: h.future, h.past.length⟩

def newest (limit : Option Nat) (snapshots : List α) : List α :=
  match limit with
  | some kept => snapshots.rtake kept
  | none => snapshots

namespace Timeline

def start (value : α) : Timeline α :=
  ⟨[value], 0⟩

def step (limit : Option Nat) (t : Timeline α) : Step α → Timeline α
  | .push value =>
    let before := newest limit (t.snapshots.take (t.cursor + 1))
    ⟨before ++ [value], before.length⟩
  | .undo => { t with cursor := t.cursor - 1 }
  | .redo => if t.cursor + 1 < t.snapshots.length then { t with cursor := t.cursor + 1 } else t

def run (limit : Option Nat) (t : Timeline α) (steps : List (Step α)) : Timeline α :=
  steps.foldl (step limit) t

end Timeline

section

variable {h g : History α} {steps : List (Step α)}

/-! ## The newest snapshots -/

theorem newest_suffix (limit : Option Nat) (snapshots : List α) :
    newest limit snapshots <:+ snapshots := by
  cases limit with
  | none => exact List.suffix_rfl
  | some kept => exact List.drop_suffix _ _

theorem newest_of_length_le {kept : Nat} {snapshots : List α} (few : snapshots.length ≤ kept) :
    newest (some kept) snapshots = snapshots := by
  rw [newest, List.rtake, Nat.sub_eq_zero_of_le few, List.drop_zero]

theorem newest_concat (limit : Option Nat) (snapshots : List α) (value : α) :
    newest (limit.map (· + 1)) (snapshots ++ [value]) = newest limit snapshots ++ [value] := by
  cases limit with
  | none => rfl
  | some kept => exact List.rtake_concat_succ snapshots kept value

/-- What is dropped before more snapshots come would be dropped after. -/
theorem newest_append (limit : Option Nat) (first more : List α) :
    newest limit (newest limit first ++ more) = newest limit (first ++ more) := by
  cases limit with
  | none => rfl
  | some kept =>
    simp only [newest, List.rtake_eq_reverse_take_reverse, List.reverse_append,
      List.reverse_reverse, List.take_append, List.take_take]
    congr 4
    omega

/-! ## Each operation -/

theorem push_eq (h : History α) (value : α) : h.push value =
    ⟨(newest h.limit (h.past.reverse ++ [h.present])).reverse, value, [], h.limit⟩ := by
  unfold push trim newest
  cases h.limit with
  | none => simp
  | some kept => simp [List.rtake_eq_reverse_take_reverse]

@[simp] theorem limit_apply (h : History α) (step : Step α) :
    (step.apply h).limit = h.limit := by
  cases step with
  | push value => rw [Step.apply, push_eq]
  | undo => simp only [Step.apply, undo]; split <;> rfl
  | redo => simp only [Step.apply, redo]; split <;> rfl

@[simp] theorem limit_run (h : History α) (steps : List (Step α)) :
    (h.run steps).limit = h.limit := by
  induction steps generalizing h with
  | nil => rfl
  | cons step rest ih => exact (ih (step.apply h)).trans (limit_apply h step)

theorem take_snapshots (h : History α) :
    h.timeline.snapshots.take (h.timeline.cursor + 1) = h.past.reverse ++ [h.present] := by
  have all : h.past.reverse.take (h.past.length + 1) = h.past.reverse :=
    List.take_of_length_le (by simp)
  simp [timeline, List.take_append, all]

theorem timeline_push (h : History α) (value : α) :
    (h.push value).timeline = h.timeline.step h.limit (.push value) := by
  rw [push_eq, Timeline.step, take_snapshots, timeline]
  simp

theorem timeline_undo (h : History α) : h.undo.timeline = h.timeline.step h.limit .undo := by
  obtain ⟨past, present, future, limit⟩ := h
  cases past with
  | nil => rfl
  | cons previous past => simp [undo, timeline, Timeline.step]

theorem timeline_redo (h : History α) : h.redo.timeline = h.timeline.step h.limit .redo := by
  obtain ⟨past, present, future, limit⟩ := h
  cases future with
  | nil => simp [redo, timeline, Timeline.step]
  | cons following future => simp [redo, timeline, Timeline.step]

theorem timeline_run (h : History α) (steps : List (Step α)) :
    (h.run steps).timeline = h.timeline.run h.limit steps := by
  induction steps generalizing h with
  | nil => rfl
  | cons step rest ih =>
    have here : (step.apply h).timeline = h.timeline.step h.limit step := by
      cases step with
      | push value => exact timeline_push h value
      | undo => exact timeline_undo h
      | redo => exact timeline_redo h
    have later := ih (step.apply h)
    rw [limit_apply, here] at later
    exact later

theorem eq_of_timeline (same : g.timeline = h.timeline) (limit : g.limit = h.limit) : g = h := by
  obtain ⟨past, present, future, _⟩ := g
  obtain ⟨otherPast, otherPresent, otherFuture, _⟩ := h
  simp only [timeline, Timeline.mk.injEq] at same
  obtain ⟨snapshots, cursor⟩ := same
  obtain ⟨pasts, rest⟩ := List.append_inj snapshots (by simpa using cursor)
  cases List.reverse_inj.mp pasts
  cases rest
  cases limit
  rfl

/-! ## The limit -/

/-- The snapshots besides the present one are no more than the limit allows. -/
def Within (h : History α) : Prop :=
  ∀ kept, h.limit = some kept → h.past.length + h.future.length ≤ kept

theorem within_push (h : History α) (value : α) : (h.push value).Within := by
  intro kept limited
  rw [push_eq] at limited ⊢
  dsimp only at limited
  simp [limited, newest, List.rtake_eq_reverse_take_reverse]

-- A redo makes the past longer without a look at the limit, so what waits to be redone has to
-- count as well.
theorem Within.apply (within : h.Within) (step : Step α) : (step.apply h).Within := by
  intro kept limited
  rw [limit_apply] at limited
  have bound := within kept limited
  obtain ⟨past, present, future, limit⟩ := h
  cases step with
  | push value => exact within_push _ value kept (by rw [push_eq]; exact limited)
  | undo =>
    cases past with
    | nil => exact bound
    | cons previous past => simp only [Step.apply, undo, List.length_cons] at bound ⊢; omega
  | redo =>
    cases future with
    | nil => exact bound
    | cons following future => simp only [Step.apply, redo, List.length_cons] at bound ⊢; omega

theorem Within.run (within : h.Within) (steps : List (Step α)) : (h.run steps).Within := by
  induction steps generalizing h with
  | nil => exact within
  | cons step rest ih => exact ih (within.apply step)

theorem withLimit_start (value : α) (limit : Option Nat) :
    (start value).withLimit limit = ⟨[], value, [], limit⟩ := by
  cases limit with
  | none => rfl
  | some kept => simp [start, withLimit, trim]

theorem within_start (value : α) (limit : Option Nat) :
    ((start value).withLimit limit).Within := by
  intro kept _
  rw [withLimit_start]
  exact Nat.zero_le kept

/-! ## Undo and redo take each other back -/

theorem redo_undo (some : h.past ≠ []) : h.undo.redo = h := by
  obtain ⟨past, present, future, limit⟩ := h
  cases past with
  | nil => contradiction
  | cons previous past => rfl

theorem undo_redo (some : h.future ≠ []) : h.redo.undo = h := by
  obtain ⟨past, present, future, limit⟩ := h
  cases future with
  | nil => contradiction
  | cons following future => rfl

theorem length_past_undo (h : History α) : h.undo.past.length = h.past.length - 1 := by
  unfold undo
  split
  · next none => simp [none]
  · next some => simp [some]

theorem length_future_redo (h : History α) : h.redo.future.length = h.future.length - 1 := by
  unfold redo
  split
  · next none => simp [none]
  · next some => simp [some]

theorem redo_iterate_undo {k : Nat} (enough : k ≤ h.past.length) :
    redo^[k] (undo^[k] h) = h := by
  induction k generalizing h with
  | zero => rfl
  | succ k ih =>
    have rest : k ≤ h.undo.past.length := by rw [length_past_undo]; omega
    rw [Function.iterate_succ_apply' redo, Function.iterate_succ_apply undo, ih rest]
    exact redo_undo (List.length_pos_iff.mp (by omega))

theorem undo_iterate_redo {k : Nat} (enough : k ≤ h.future.length) :
    undo^[k] (redo^[k] h) = h := by
  induction k generalizing h with
  | zero => rfl
  | succ k ih =>
    have rest : k ≤ h.redo.future.length := by rw [length_future_redo]; omega
    rw [Function.iterate_succ_apply' undo, Function.iterate_succ_apply redo, ih rest]
    exact undo_redo (List.length_pos_iff.mp (by omega))

/-! ## What becomes of the snapshots -/

theorem snapshots_push_sublist (h : History α) (value : α) :
    (h.push value).timeline.snapshots.Sublist (h.timeline.snapshots ++ [value]) := by
  rw [timeline_push]
  have kept := (newest_suffix h.limit (h.timeline.snapshots.take (h.timeline.cursor + 1))).sublist
  exact (kept.trans (List.take_sublist _ _)).append_right [value]

theorem snapshots_undo (h : History α) : h.undo.timeline.snapshots = h.timeline.snapshots := by
  rw [timeline_undo]
  rfl

theorem snapshots_redo (h : History α) : h.redo.timeline.snapshots = h.timeline.snapshots := by
  rw [timeline_redo, Timeline.step]
  split <;> rfl

/-- A run leaves snapshots that were there before or that it pushed, each at most once and in the
order in which they came. -/
theorem snapshots_run_sublist (h : History α) (steps : List (Step α)) :
    (h.run steps).timeline.snapshots.Sublist
      (h.timeline.snapshots ++ steps.filterMap Step.pushes?) := by
  induction steps generalizing h with
  | nil => simp [run]
  | cons step rest ih =>
    have later := ih (step.apply h)
    cases step with
    | push value =>
      refine later.trans ?_
      have here := (snapshots_push_sublist h value).append_right (rest.filterMap Step.pushes?)
      simpa [Step.apply, Step.pushes?] using here
    | undo => rwa [Step.apply, snapshots_undo] at later
    | redo => rwa [Step.apply, snapshots_redo] at later

/-- Whenever a run pushes, nothing is waiting to be redone. -/
def PushesAtEnd (h : History α) : List (Step α) → Prop
  | [] => True
  | step :: rest => ((step.pushes?).isSome → h.future = []) ∧ PushesAtEnd (step.apply h) rest

theorem snapshots_run_eq (within : h.Within) (atEnd : h.PushesAtEnd steps) :
    (h.run steps).timeline.snapshots = newest (h.limit.map (· + 1))
      (h.timeline.snapshots ++ steps.filterMap Step.pushes?) := by
  induction steps generalizing h with
  | nil =>
    cases limited : h.limit with
    | none => simp [run, newest]
    | some kept =>
      have bound := within kept limited
      rw [Option.map_some, newest_of_length_le]
      · simp [run]
      · simp [timeline]
        omega
  | cons step rest ih =>
    obtain ⟨here, later⟩ := atEnd
    have onward := ih (within.apply step) later
    rw [limit_apply] at onward
    refine Eq.trans onward ?_
    cases step with
    | push value =>
      have whole : h.past.reverse ++ [h.present] = h.timeline.snapshots := by
        rw [timeline, here rfl]
      have pushed : (h.push value).timeline.snapshots =
          newest (h.limit.map (· + 1)) (h.timeline.snapshots ++ [value]) := by
        rw [newest_concat, ← whole, ← take_snapshots, timeline_push]
        rfl
      rw [Step.apply, pushed, newest_append]
      simp [Step.pushes?]
    | undo => rw [Step.apply, snapshots_undo]; rfl
    | redo => rw [Step.apply, snapshots_redo]; rfl

end

/-- A history is a list of snapshots with a cursor, and each operation does on the list what it
says: undo and redo move the cursor, a push cuts the list off behind it. The limit holds, undo and
redo take each other back, and no snapshot is altered, doubled or lost, except by the limit and by
a push after an undo. -/
theorem run_refines_timeline (value : α) (limit : Option Nat) (steps : List (Step α)) :
    let h := ((start value).withLimit limit).run steps
    h.timeline = (Timeline.start value).run limit steps ∧
    (∀ g : History α, g.timeline = h.timeline → g.limit = limit → g = h) ∧
    h.timeline.snapshots[h.timeline.cursor]? = some h.present ∧
    (∀ kept, limit = some kept → h.past.length + h.future.length ≤ kept) ∧
    (∀ k ≤ h.past.length, redo^[k] (undo^[k] h) = h) ∧
    (∀ k ≤ h.future.length, undo^[k] (redo^[k] h) = h) ∧
    h.timeline.snapshots.Sublist (value :: steps.filterMap Step.pushes?) ∧
    ∀ more, h.PushesAtEnd more → (h.run more).timeline.snapshots =
      newest (limit.map (· + 1)) (h.timeline.snapshots ++ more.filterMap Step.pushes?) := by
  intro h
  have given : ((start value).withLimit limit).limit = limit := by rw [withLimit_start]
  have limited : h.limit = limit := (limit_run _ steps).trans given
  have within : h.Within := (within_start value limit).run steps
  have first : ((start value).withLimit limit).timeline = Timeline.start value := by
    rw [withLimit_start]
    rfl
  have refined := timeline_run ((start value).withLimit limit) steps
  have pushed := snapshots_run_sublist ((start value).withLimit limit) steps
  rw [first, given] at refined
  rw [first] at pushed
  refine ⟨refined, ?_, ?_, ?_, ?_, ?_, pushed, ?_⟩
  · exact fun g same sameLimit => eq_of_timeline same (sameLimit.trans limited.symm)
  · simp [timeline]
  · exact fun kept same => within kept (limited.trans same)
  · exact fun k enough => redo_iterate_undo enough
  · exact fun k enough => undo_iterate_redo enough
  · exact fun more atEnd => limited ▸ snapshots_run_eq within atEnd

def recut : List (Step Nat) :=
  [.push 1, .push 2, .push 3, .undo, .undo, .push 4, .redo, .undo]

theorem run_refines_timeline_recut :
    let h := ((start 0).withLimit (some 2)).run recut
    h.timeline = ⟨[1, 4], 0⟩ ∧ h.past.length + h.future.length ≤ 2 ∧ undo (redo h) = h ∧
    (h.run [.redo, .push 5, .push 6]).timeline.snapshots = [4, 5, 6] := by
  intro h
  obtain ⟨refined, _, _, bound, _, undone, _, atEnd⟩ := run_refines_timeline 0 (some 2) recut
  refine ⟨refined.trans (by decide), bound 2 rfl, undone 1 (by decide), ?_⟩
  exact (atEnd [.redo, .push 5, .push 6] ⟨nofun, fun _ => rfl, fun _ => rfl, trivial⟩).trans
    (by decide)

end Parametric.History
