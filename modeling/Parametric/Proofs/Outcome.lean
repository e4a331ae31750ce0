import Mathlib.Data.List.Nodup
/-! What an accepted step of several parts comes from, and what the steps of a run make. -/

set_option autoImplicit false

namespace Parametric

variable {α β ε : Type} {x : Except ε α}

theorem ok_of_map {f : α → β} {b : β} (mapped : x.map f = .ok b) : ∃ a, x = .ok a ∧ f a = b := by
  cases x with
  | error e => cases mapped
  | ok a => exact ⟨a, rfl, Except.ok.inj mapped⟩

theorem ok_of_bind {f : α → Except ε β} {b : β} (bound : (x >>= f) = .ok b) :
    ∃ a, x = .ok a ∧ f a = .ok b := by
  cases x with
  | error e => cases bound
  | ok a => exact ⟨a, rfl, bound⟩

theorem error_of_bind {f : α → Except ε β} {e : ε} (bound : (x >>= f) = .error e) :
    x = .error e ∨ ∃ a, x = .ok a ∧ f a = .error e := by
  cases x with
  | error reason =>
    cases bound
    exact .inl rfl
  | ok a => exact .inr ⟨a, rfl, bound⟩

theorem ok_of_isOk (succeeds : x.isOk = true) : ∃ a, x = .ok a := by
  cases x with
  | error e => cases succeeds
  | ok a => exact ⟨a, rfl⟩

theorem ok_of_toOption {a : α} (accepted : x.toOption = some a) : x = .ok a := by
  cases x with
  | error e => cases accepted
  | ok b => exact congrArg Except.ok (Option.some.inj accepted)

theorem error_of_foldlM {f : β → α → Except ε β} {steps : List α} {start : β} {e : ε}
    (failed : steps.foldlM f start = .error e) : ∃ before step after reached,
      steps = before ++ step :: after ∧ before.foldlM f start = .ok reached ∧
        f reached step = .error e := by
  induction steps generalizing start with
  | nil => cases failed
  | cons step rest ih =>
    rw [List.foldlM_cons] at failed
    rcases error_of_bind failed with here | ⟨next, taken, later⟩
    · exact ⟨[], step, rest, start, rfl, rfl, here⟩
    · obtain ⟨before, last, after, reached, rfl, run, there⟩ := ih later
      refine ⟨step :: before, last, after, reached, rfl, ?_, there⟩
      rw [List.foldlM_cons, taken]
      exact run

/-- What the steps behind the first one make is distinct, and new behind the first one. -/
theorem fresh_behind {makes? : α → Option β} {made : List β} {step : α} {rest : List α}
    (distinct : ((step :: rest).filterMap makes?).Nodup)
    (fresh : ∀ id ∈ (step :: rest).filterMap makes?, id ∉ made) :
    (rest.filterMap makes?).Nodup ∧
      ∀ id ∈ rest.filterMap makes?, id ∉ (makes? step).toList ++ made := by
  have split : (step :: rest).filterMap makes? =
      (makes? step).toList ++ rest.filterMap makes? := by
    cases makes : makes? step <;> simp [makes]
  rw [split] at distinct fresh
  obtain ⟨_, later, apart⟩ := List.nodup_append.mp distinct
  constructor
  · exact later
  · intro id member made
    rcases List.mem_append.mp made with first | old
    · exact apart id first id member rfl
    · exact fresh id (List.mem_append_right _ member) old

theorem fresh_last {makes? : α → Option β} {before : List α} {step : α}
    (distinct : ((before ++ [step]).filterMap makes?).Nodup) :
    (before.filterMap makes?).Nodup ∧
      ∀ id, makes? step = some id → id ∉ before.filterMap makes? := by
  rw [List.filterMap_append] at distinct
  obtain ⟨earlier, _, apart⟩ := List.nodup_append.mp distinct
  refine ⟨earlier, fun id makes member => ?_⟩
  exact apart id member id (by simp [makes]) rfl

end Parametric
