import Mathlib.Logic.Relation
import Parametric.Proofs.Sketch.Edit
/-! How far a removal goes.

The work list of a removal may name a primitive more than once, and references may run in circles
or lead nowhere. What goes is still the closure: the primitive and whatever a chain of references
defines by it.
-/

set_option autoImplicit false

namespace Parametric.Sketch

variable {s : Sketch} {id other : PrimitiveId} {pending : List PrimitiveId}

theorem removePending_nodup (pending : List PrimitiveId) : (s.removePending pending).1.Nodup := by
  induction s, pending using removePending.induct with
  | case1 s =>
    rw [removePending]
    exact List.nodup_nil
  | case2 s id rest present smaller _ _ _ ih =>
    rw [removePending_cons, if_pos present]
    refine List.nodup_cons.mpr ⟨fun again => ?_, ih⟩
    -- A primitive that was dropped is not there to be removed again.
    have there := (removes_removePending _).present id again
    rw [get?_drop, if_pos rfl] at there
    cases there
  | case3 s id rest absent ih =>
    rw [removePending_cons, if_neg absent]
    exact ih

theorem reaches_of_mem_removePending (member : other ∈ (s.removePending pending).1) :
    ∃ id ∈ pending, Relation.ReflTransGen s.Mentions other id := by
  induction s, pending using removePending.induct with
  | case1 s =>
    rw [removePending] at member
    cases member
  | case2 s id rest present smaller _ _ _ ih =>
    rw [removePending_cons, if_pos present] at member
    rcases List.mem_cons.mp member with rfl | later
    · exact ⟨other, List.mem_cons_self, .refl⟩
    · obtain ⟨next, waits, chain⟩ := ih later
      have fewer : ∀ a b, smaller.Mentions a b → s.Mentions a b := fun _ _ mentions =>
        (mentions_drop.mp mentions).2
      have before : Relation.ReflTransGen s.Mentions other next :=
        Relation.ReflTransGen.mono fewer _ _ chain
      rcases List.mem_append.mp waits with defined | waited
      · have mentions : smaller.Mentions next id :=
          mem_referencing.mp (List.mem_reverse.mp defined)
        exact ⟨id, List.mem_cons_self, before.tail (mentions_drop.mp mentions).2⟩
      · exact ⟨next, List.mem_cons_of_mem _ waited, before⟩
  | case3 s id rest absent ih =>
    rw [removePending_cons, if_neg absent] at member
    obtain ⟨next, waits, chain⟩ := ih member
    exact ⟨next, List.mem_cons_of_mem _ waits, chain⟩

/-- What a removed primitive defines is removed with it. -/
theorem mem_remove_of_mentions (mentions : s.Mentions other id) {first : PrimitiveId}
    (removed : id ∈ (s.remove first).1) : other ∈ (s.remove first).1 := by
  have removes : s.Removes (s.remove first).1 (s.remove first).2 := removes_removePending [first]
  -- References that led nowhere before the removal are of no interest.
  have waiting : ∀ other r, s.Mentions other r → (s.get? r).isSome → s.get? r = none →
      other ∈ [first] := by
    intro other r _ present missing
    rw [missing] at present
    cases present
  by_contra kept
  have still : (s.remove first).2.Mentions other id := by
    obtain ⟨p, found, mentioned⟩ := mentions
    exact ⟨p, by rw [removes.get?, if_neg kept, found], mentioned⟩
  refine get?_of_mentions_removePending waiting other id still (removes.present id removed) ?_
  exact (removes.get? id).trans (if_pos removed)

theorem mem_remove_of_reaches (chain : Relation.ReflTransGen s.Mentions other id)
    {first : PrimitiveId} (removed : id ∈ (s.remove first).1) : other ∈ (s.remove first).1 := by
  induction chain using Relation.ReflTransGen.head_induction_on with
  | refl => exact removed
  | head mentions _ ih => exact mem_remove_of_mentions mentions ih

theorem remove_of_absent (absent : s.get? id = none) : s.remove id = ([], s) := by
  rw [remove, removePending_cons, if_neg (by simp [absent]), removePending]

theorem mem_remove (present : (s.get? id).isSome) :
    other ∈ (s.remove id).1 ↔ other = id ∨ Relation.TransGen s.Mentions other id := by
  rw [← Relation.reflTransGen_iff_eq_or_transGen.trans (or_congr_left eq_comm)]
  constructor
  · intro member
    obtain ⟨first, waits, chain⟩ := reaches_of_mem_removePending member
    exact List.mem_singleton.mp waits ▸ chain
  · intro chain
    refine mem_remove_of_reaches chain ?_
    rw [remove, removePending_cons, if_pos present]
    exact List.mem_cons_self

/-- A removal ends for every sketch, also where references run in circles or lead nowhere. It lists
each primitive that it removes once: the one that it is asked for and those from which references
lead to it. They and their solved positions are gone, and nothing else is changed. Without the
primitive the sketch stays as it is. -/
theorem remove_exact (s : Sketch) (id : PrimitiveId) :
    ∃ removed next, s.remove id = (removed, next) ∧
      (s.get? id = none → removed = [] ∧ next = s) ∧
      ((s.get? id).isSome → removed.Nodup ∧
        (∀ other, other ∈ removed ↔ other = id ∨ Relation.TransGen s.Mentions other id) ∧
        (∀ other, next.get? other = if other ∈ removed then none else s.get? other) ∧
        (∀ other, next.solvedPosition? other =
          if other ∈ removed then none else s.solvedPosition? other) ∧
        (next.id, next.name, next.plane) = (s.id, s.name, s.plane)) := by
  refine ⟨(s.remove id).1, (s.remove id).2, rfl, fun absent => ?_, fun present => ?_⟩
  · rw [remove_of_absent absent]
    exact ⟨rfl, rfl⟩
  · have removes : s.Removes (s.remove id).1 (s.remove id).2 := removes_removePending [id]
    exact ⟨removePending_nodup [id], fun _ => mem_remove present, removes.get?,
      removes.solvedPosition?, removes.kept⟩

/-- A line and a circle that define each other, an arc with the line twice among its references,
a circle around a primitive that is missing, and a point. -/
def tangled : Sketch where
  id := ⟨1⟩
  name := "Sketch 1"
  plane := ⟨7⟩
  primitives := .ofList [(⟨1⟩, ⟨.line ⟨2⟩ ⟨1⟩, false⟩), (⟨2⟩, ⟨.circle ⟨1⟩ 1.0, false⟩),
    (⟨3⟩, ⟨.arc ⟨1⟩ ⟨5⟩ ⟨1⟩ true, false⟩), (⟨4⟩, ⟨.circle ⟨9⟩ 1.0, false⟩),
    (⟨5⟩, ⟨.point 0.0 0.0, false⟩)]
  solved := .ofList [(⟨2⟩, ⟨1.0, 1.0⟩), (⟨5⟩, ⟨2.0, 1.0⟩)]

theorem remove_exact_tangled :
    (tangled.get? ⟨2⟩).isSome ∧ tangled.get? ⟨9⟩ = none ∧
    (⟨3⟩ : PrimitiveId) ∈ (tangled.remove ⟨2⟩).1 ∧
    (tangled.remove ⟨2⟩).2.get? ⟨3⟩ = none ∧
    (tangled.remove ⟨9⟩).2 = tangled := by
  have present : (tangled.get? ⟨2⟩).isSome := by decide +kernel
  have absent : tangled.get? ⟨9⟩ = none := by decide +kernel
  obtain ⟨removed, next, answer, _, gone⟩ := remove_exact tangled ⟨2⟩
  obtain ⟨_, closure, kept, _⟩ := gone present
  have line : tangled.Mentions ⟨1⟩ ⟨2⟩ := ⟨_, rfl, by decide⟩
  have arc : tangled.Mentions ⟨3⟩ ⟨1⟩ := ⟨_, rfl, by decide⟩
  have member : (⟨3⟩ : PrimitiveId) ∈ removed :=
    (closure ⟨3⟩).mpr (.inr (.head arc (.single line)))
  obtain ⟨_, same, unchanged, whole, _⟩ := remove_exact tangled ⟨9⟩
  refine ⟨present, absent, ?_, ?_, ?_⟩
  · rw [answer]
    exact member
  · rw [answer, kept, if_pos member]
  · rw [unchanged]
    exact (whole absent).2

end Parametric.Sketch
