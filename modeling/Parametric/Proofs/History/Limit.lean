import Mathlib.Data.List.Induction
import Parametric.Proofs.History
/-! When the limit of past snapshots holds.

A push and a new limit drop what is too much. A redo does not look at the limit, so the limit holds
for good only if there is room for the snapshots that wait to be redone as well. Only a limit that
is set while snapshots wait can leave too little room, and only until the next push.
-/

set_option autoImplicit false

namespace Parametric.History

variable {α : Type}

inductive Change (α : Type) where
  | step (step : Step α)
  | withLimit (limit : Option Nat)

namespace Change

def apply (h : History α) : Change α → History α
  | step s => s.apply h
  | withLimit limit => h.withLimit limit

def isMove : Change α → Bool
  | step .undo | step .redo => true
  | step (.push _) | withLimit _ => false

end Change

def after (h : History α) (changes : List (Change α)) : History α :=
  changes.foldl Change.apply h

/-- The limit was set when more snapshots waited to be redone than it left room for, and since then
there were only undos and redos. -/
def Overfull (h : History α) (changes : List (Change α)) (kept : Nat) : Prop :=
  ∃ before later, changes = before ++ .withLimit (some kept) :: later ∧
    (∀ c ∈ later, c.isMove = true) ∧
    kept < min kept (h.after before).past.length + (h.after before).future.length

section

variable {h : History α} {changes : List (Change α)} {c : Change α} {kept : Nat}

@[simp] theorem after_append (changes more : List (Change α)) :
    h.after (changes ++ more) = (h.after changes).after more :=
  List.foldl_append

theorem after_concat (changes : List (Change α)) (c : Change α) :
    h.after (changes ++ [c]) = c.apply (h.after changes) := by
  rw [after_append]
  rfl

theorem not_overfull_nil : ¬ h.Overfull [] kept := by
  rintro ⟨before, later, split, _⟩
  exact List.append_ne_nil_of_right_ne_nil before (List.cons_ne_nil _ later) split.symm

theorem overfull_concat : h.Overfull (changes ++ [c]) kept ↔
    (c = .withLimit (some kept) ∧
      kept < min kept (h.after changes).past.length + (h.after changes).future.length) ∨
    (c.isMove = true ∧ h.Overfull changes kept) := by
  constructor
  · rintro ⟨before, later, split, moves, full⟩
    rcases List.eq_nil_or_concat later with rfl | ⟨part, last, rfl⟩
    · obtain ⟨rfl, same⟩ := List.append_inj' split rfl
      exact .inl ⟨(List.cons.inj same).1, full⟩
    · have regrouped : changes ++ [c] = (before ++ .withLimit (some kept) :: part) ++ [last] := by
        simpa using split
      obtain ⟨rfl, same⟩ := List.append_inj' regrouped rfl
      cases same
      exact .inr ⟨moves c (by simp), before, part, rfl, fun d member => moves d (by simp [member]),
        full⟩
  · rintro (⟨rfl, full⟩ | ⟨move, before, later, rfl, moves, full⟩)
    · exact ⟨changes, [], rfl, nofun, full⟩
    · refine ⟨before, later ++ [c], by simp, fun d member => ?_, full⟩
      rcases List.mem_append.mp member with earlier | last
      · exact moves d earlier
      · exact List.mem_singleton.mp last ▸ move

theorem limit_move (move : c.isMove = true) : (c.apply h).limit = h.limit := by
  cases c with
  | step s => exact limit_apply h s
  | withLimit limit => cases move

theorem length_move (move : c.isMove = true) :
    (c.apply h).past.length + (c.apply h).future.length = h.past.length + h.future.length := by
  obtain ⟨past, present, future, limit⟩ := h
  cases c with
  | step s =>
    cases s with
    | push value => cases move
    | undo =>
      cases past with
      | nil => rfl
      | cons previous past => simp only [Change.apply, Step.apply, undo, List.length_cons]; omega
    | redo =>
      cases future with
      | nil => rfl
      | cons following future => simp only [Change.apply, Step.apply, redo, List.length_cons]; omega
  | withLimit limit => cases move

theorem length_withLimit (h : History α) (kept : Nat) :
    (h.withLimit (some kept)).past.length = min kept h.past.length := by
  simp [withLimit, trim]

@[simp] theorem future_withLimit (h : History α) (limit : Option Nat) :
    (h.withLimit limit).future = h.future := by
  cases limit <;> rfl

@[simp] theorem limit_withLimit (h : History α) (limit : Option Nat) :
    (h.withLimit limit).limit = limit := by
  cases limit <;> rfl

/-- There is room for all snapshots unless the limit was set while too many waited. -/
theorem length_le_iff (within : h.Within) (limited : (h.after changes).limit = some kept) :
    (h.after changes).past.length + (h.after changes).future.length ≤ kept ↔
      ¬ h.Overfull changes kept := by
  induction changes using List.reverseRecOn with
  | nil => exact iff_of_true (within kept limited) not_overfull_nil
  | append_singleton before c ih =>
    rw [after_concat] at limited ⊢
    rw [overfull_concat]
    have moved : c.isMove = true →
        ((c.apply (h.after before)).past.length + (c.apply (h.after before)).future.length ≤
          kept ↔ ¬ h.Overfull before kept) := by
      intro move
      rw [limit_move move] at limited
      rw [length_move move]
      exact ih limited
    cases c with
    | step s =>
      cases s with
      | push value =>
        have room := within_push (h.after before) value kept limited
        simpa [Change.isMove, Change.apply, Step.apply] using room
      | undo => simpa [Change.isMove] using moved rfl
      | redo => simpa [Change.isMove] using moved rfl
    | withLimit limit =>
      obtain rfl : limit = some kept := by simpa [Change.apply] using limited
      simp only [Change.apply, Change.isMove, length_withLimit, future_withLimit]
      simp

theorem length_redo_all (h : History α) :
    (redo^[h.future.length] h).past.length = h.past.length + h.future.length := by
  obtain ⟨past, present, future, limit⟩ := h
  induction future generalizing past present with
  | nil => rfl
  | cons following future ih =>
    rw [List.length_cons, Function.iterate_succ_apply, redo, ih]
    simp only [List.length_cons]
    omega

theorem after_redos (h : History α) (k : Nat) :
    h.after (List.replicate k (.step .redo)) = redo^[k] h := by
  induction k generalizing h with
  | zero => rfl
  | succ k ih => exact ih h.redo

end

/-- The limit holds in every history that pushes, undos, redos and new limits lead to, unless it was
set when more snapshots waited to be redone than it left room for. Then, until the next push or new
limit, redoing goes beyond it. -/
theorem past_within_limit (value : α) (changes : List (Change α)) {kept : Nat}
    (limited : ((start value).after changes).limit = some kept) :
    (¬ (start value).Overfull changes kept → ((start value).after changes).past.length ≤ kept) ∧
    ((start value).Overfull changes kept → ∃ moves : List (Change α),
      (∀ c ∈ moves, c.isMove = true) ∧
      kept < (((start value).after changes).after moves).past.length) := by
  have within : (start value).Within := fun _ limited => nomatch limited
  have room := length_le_iff within limited
  constructor
  · intro spacious
    have := room.mpr spacious
    omega
  · intro full
    refine ⟨List.replicate ((start value).after changes).future.length (.step .redo), ?_, ?_⟩
    · intro c member
      rw [(List.mem_replicate.mp member).2]
      rfl
    · rw [after_redos, length_redo_all]
      by_contra few
      exact room.mp (Nat.le_of_not_lt few) full

theorem past_within_limit_reset :
    let undone : List (Change Nat) :=
      [.step (.push 1), .step (.push 2), .step .undo, .withLimit (some 1)]
    let pushed := undone ++ [.step (.push 3)]
    (∃ moves : List (Change Nat), (∀ c ∈ moves, c.isMove = true) ∧
      1 < (((start 0).after undone).after moves).past.length) ∧
    ((start 0).after pushed).limit = some 1 ∧ ((start 0).after pushed).past.length ≤ 1 := by
  intro undone pushed
  have full : (start 0).Overfull undone 1 :=
    ⟨[.step (.push 1), .step (.push 2), .step .undo], [], rfl, nofun, by decide⟩
  refine ⟨(past_within_limit 0 undone rfl).2 full, rfl, (past_within_limit 0 pushed rfl).1 ?_⟩
  rw [overfull_concat]
  rintro (⟨same, _⟩ | ⟨move, _⟩)
  · cases same
  · cases move

theorem redone_exceeds_limit :
    let h := (start 0).after
      [.step (.push 1), .step .undo, .withLimit (some 0), .step .redo]
    h.limit = some 0 ∧ ¬ h.past.length ≤ 0 := by
  decide

end Parametric.History
