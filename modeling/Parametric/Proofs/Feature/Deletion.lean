import Parametric.Proofs.Feature.Tree
/-! What a deletion changes in a studio.

The feature goes from the tree, from the order and from what is shown, with the sketch that it owns.
The cutoff moves so that each other feature stays visible or hidden, and what was built from the
feature is left dangling. Nothing else changes.
-/

set_option autoImplicit false

namespace Parametric.Studio

variable {s t : Studio} {id x d : OpId} {op : Op} {node : Node}

theorem take_erase {α : Type} [DecidableEq α] (xs : List α) (a : α) (n : Nat) :
    (xs.erase a).take (if xs.idxOf a < n then n - 1 else n) = (xs.take n).erase a := by
  induction xs generalizing n with
  | nil => simp
  | cons x rest ih =>
    cases n with
    | zero => simp
    | succ n =>
      by_cases same : x = a
      · subst same
        simp
      · have later := ih n
        rw [List.erase_cons_tail (by simpa using same), List.idxOf_cons_ne _ same,
          List.take_succ_cons, List.erase_cons_tail (by simpa using same), ← later]
        by_cases before : rest.idxOf a < n
        · obtain ⟨m, rfl⟩ := Nat.exists_eq_add_of_lt before
          simp [before]
        · simp [before]

theorem delete?_of_get? (found : s.nodes.get? id = some node) :
    ∃ t, s.delete? id = some (node.op, t) := by
  rw [delete?, found]
  exact ⟨_, rfl⟩

theorem order_delete (deleted : s.delete? id = some (op, t)) : t.order = s.order.erase id := by
  unfold delete? at deleted
  split at deleted
  · cases deleted
  · cases deleted
    rfl

theorem delete?_keeps (deleted : s.delete? id = some (op, t)) :
    (t.id, t.name, t.planes, t.modified) = (s.id, s.name, s.planes, s.modified) := by
  unfold delete? at deleted
  split at deleted
  · cases deleted
  · cases deleted
    rfl

theorem indexOf?_of_mem (member : id ∈ s.order) : s.indexOf? id = some (s.order.idxOf id) := by
  rw [indexOf?, List.findIdx?_eq_some_iff_findIdx_eq]
  exact ⟨List.idxOf_lt_length_of_mem member, rfl⟩

theorem effectiveLength_delete (member : id ∈ s.order) (deleted : s.delete? id = some (op, t)) :
    t.effectiveLength = if s.order.idxOf id < s.effectiveLength then s.effectiveLength - 1
      else s.effectiveLength := by
  unfold delete? at deleted
  split at deleted
  · cases deleted
  · cases deleted
    unfold effectiveLength
    dsimp only
    rw [indexOf?_of_mem member]
    cases s.cutoff with
    | some position => rfl
    | none =>
      have inside := List.idxOf_lt_length_of_mem member
      simp [inside, List.length_erase_of_mem member]

theorem get?_delete (deleted : s.delete? id = some (op, t)) :
    t.nodes.get? x = if x = id then none else s.nodes.get? x := by
  obtain ⟨_, _, nodes, _⟩ := delete?_eq_some deleted
  rw [nodes, SortedMap.get?_erase]

theorem sketches_delete (found : s.nodes.get? id = some node)
    (deleted : s.delete? id = some (op, t)) (sketch : SketchId) : t.sketches.get? sketch =
      if node.op.feature.ownedSketch? = some sketch then none else s.sketches.get? sketch := by
  obtain ⟨_, same, _, _, sketches⟩ := delete?_eq_some deleted
  cases found.symm.trans same
  rw [sketches]
  cases node.op.feature.ownedSketch? with
  | none => simp
  | some owned => simp [SortedMap.get?_erase, eq_comm]

namespace WellFormed

theorem kept (wellFormed : s.WellFormed) :
    s.Kept (s.order ++ s.nodes.values.flatMap (·.dependencies)) where
  toWellFormed := wellFormed
  order_made _ member := List.mem_append_left _ member
  dependencies_made other node found _ member := List.mem_append_right _
    (List.mem_flatMap.mpr ⟨node, SortedMap.mem_values.mpr ⟨other, found⟩, member⟩)

theorem delete (wellFormed : s.WellFormed) (deleted : s.delete? id = some (op, t)) :
    t.WellFormed :=
  (wellFormed.kept.delete deleted).toWellFormed

theorem filterMap_delete (wellFormed : s.WellFormed) (deleted : s.delete? id = some (op, t))
    (ids : List OpId) : (ids.filter (· ≠ id)).filterMap t.nodes.get? =
      (ids.filterMap s.nodes.get?).filter (·.op.id ≠ id) := by
  rw [List.filterMap_filter, List.filter_filterMap]
  refine List.filterMap_congr fun other _ => ?_
  rw [get?_delete deleted]
  cases found : s.nodes.get? other with
  | none => simp
  | some node =>
    have own := wellFormed.ids other node found
    by_cases same : other = id
    · simp [Option.filter_some, own, same]
    · simp [Option.filter_some, own, same]

theorem erase_eq_filter (wellFormed : s.WellFormed) {ids : List OpId}
    (part : ids.Sublist s.order) (id : OpId) : ids.erase id = ids.filter (· ≠ id) := by
  rw [(wellFormed.distinct.sublist part).erase_eq_filter]
  exact List.filter_congr fun x _ => by rw [decide_not]; rfl

theorem effectiveOps_delete (wellFormed : s.WellFormed)
    (deleted : s.delete? id = some (op, t)) (member : id ∈ s.order) :
    t.effectiveOps = s.effectiveOps.filter (·.op.id ≠ id) := by
  rw [effectiveOps, order_delete deleted, effectiveLength_delete member deleted, take_erase,
    wellFormed.erase_eq_filter (List.take_sublist _ _), wellFormed.filterMap_delete deleted]
  rfl

theorem mem_ops (wellFormed : s.WellFormed) :
    node ∈ s.ops ↔ s.nodes.get? node.op.id = some node := by
  unfold ops
  rw [List.mem_filterMap]
  constructor
  · rintro ⟨other, _, found⟩
    rwa [wellFormed.ids other node found]
  · intro found
    exact ⟨_, wellFormed.mem_order.mpr (SortedMap.contains_of_get? found), found⟩

theorem mem_danglingDependencies (wellFormed : s.WellFormed) :
    (x, d) ∈ s.danglingDependencies ↔
      ∃ node, s.nodes.get? x = some node ∧ d ∈ node.inputs ∧ s.nodes.get? d = none := by
  unfold danglingDependencies contains SortedMap.contains
  simp only [List.mem_flatMap, List.mem_map, List.mem_filter, Prod.mk.injEq]
  constructor
  · rintro ⟨node, listed, d, ⟨input, missing⟩, rfl, rfl⟩
    exact ⟨node, wellFormed.mem_ops.mp listed, input, by simpa using missing⟩
  · rintro ⟨node, found, input, missing⟩
    have own := wellFormed.ids x node found
    have listed := wellFormed.mem_ops.mpr (own.symm ▸ found)
    exact ⟨node, listed, d, ⟨input, by simp [missing]⟩, own, rfl⟩

/-- What named something missing still does, and what named the deleted feature does now. -/
theorem mem_danglingDependencies_delete (wellFormed : s.WellFormed)
    (deleted : s.delete? id = some (op, t)) :
    (x, d) ∈ t.danglingDependencies ↔ x ≠ id ∧ ((x, d) ∈ s.danglingDependencies ∨
      d = id ∧ ∃ user, s.nodes.get? x = some user ∧ id ∈ user.inputs) := by
  rw [(wellFormed.delete deleted).mem_danglingDependencies, wellFormed.mem_danglingDependencies,
    get?_delete deleted, get?_delete deleted]
  constructor
  · rintro ⟨user, found, input, missing⟩
    obtain ⟨other, found⟩ := Option.ite_none_left_eq_some.mp found
    refine ⟨other, ?_⟩
    split at missing
    · next same => exact .inr ⟨same, user, found, same ▸ input⟩
    · exact .inl ⟨user, found, input, missing⟩
  · rintro ⟨other, ⟨user, found, input, missing⟩ | ⟨rfl, user, found, input⟩⟩
    · exact ⟨user, by rw [if_neg other, found], input, by rw [missing, ite_self]⟩
    · exact ⟨user, by rw [if_neg other, found], input, if_pos rfl⟩

end WellFormed

/-- Deleting a feature of a studio that edits led to gives the feature back and takes it out: of the
order, of the tree, of what is shown, and with the sketch that it owns. All other features, sketches
and planes are as they were, and each other feature is shown or hidden as it was. Dangling are the
inputs that dangled before, those of the deleted feature apart, and the deleted feature as an input
of others. When the studio was last changed plays no role. -/
theorem delete_exact (fresh : StudioId) (name : String) (edits : List Edit)
    (distinct : (edits.filterMap Edit.makes?).Nodup) (noted : Option Timestamp) {id : OpId}
    {node : Node} (present : (after fresh name edits).nodes.get? id = some node) :
    let s : Studio := { after fresh name edits with modified := noted }
    ∃ t, s.delete? id = some (node.op, t) ∧
      t.order = s.order.filter (· ≠ id) ∧
      (∀ other, t.nodes.get? other = if other = id then none else s.nodes.get? other) ∧
      (∀ sketch, t.sketches.get? sketch =
        if node.op.feature.ownedSketch? = some sketch then none else s.sketches.get? sketch) ∧
      t.effectiveOps = s.effectiveOps.filter (·.op.id ≠ id) ∧
      (∀ x d, (x, d) ∈ t.danglingDependencies ↔ x ≠ id ∧ ((x, d) ∈ s.danglingDependencies ∨
        d = id ∧ ∃ user, s.nodes.get? x = some user ∧ id ∈ user.inputs)) ∧
      (t.id, t.name, t.planes, t.modified) = (s.id, s.name, s.planes, s.modified) := by
  intro s
  have run : (after fresh name edits).WellFormed :=
    (new_kept fresh name).run edits distinct (by simp)
  have kept : s.Kept _ := run.kept.of_skeleton (fun _ => rfl) rfl run.cutoff fun _ held => held
  have wellFormed : s.WellFormed := kept.toWellFormed
  have member : id ∈ s.order := wellFormed.mem_order.mpr (SortedMap.contains_of_get? present)
  obtain ⟨t, deleted⟩ := delete?_of_get? (s := s) present
  refine ⟨t, deleted, ?_, fun _ => get?_delete deleted, sketches_delete present deleted,
    wellFormed.effectiveOps_delete deleted member,
    fun _ _ => wellFormed.mem_danglingDependencies_delete deleted, delete?_keeps deleted⟩
  rw [order_delete deleted, wellFormed.erase_eq_filter (List.Sublist.refl _)]

/-- An extrusion that a union and a fillet are built from, hidden from the fillet on. The tool of
the union was never there. -/
def sharedBase : List Edit :=
  [.addSketch (Id.ofNat 10) (Id.ofNat 1) "Sketch 1" none,
    .addExtrude (Id.ofNat 2) "Extrude 1" (.sketch (Id.ofNat 10)) .positive (.literal 4.0),
    .addBoolean (Id.ofNat 3) "Boolean 1" .union (Id.ofNat 2) (Id.ofNat 9),
    .addFillet (Id.ofNat 4) "Fillet 1" (Id.ofNat 2) [] (.literal 1.0),
    .rollbackTo (Id.ofNat 3)]

theorem delete_exact_sharedBase :
    let s := { after (Id.ofNat 7) "Part Studio 1" sharedBase with modified := none }
    ∃ op t, s.delete? (Id.ofNat 2) = some (op, t) ∧
      t.order = [Id.ofNat 1, Id.ofNat 3, Id.ofNat 4] ∧
      t.effectiveOps.map (·.op.id) = [Id.ofNat 1, Id.ofNat 3] ∧
      (Id.ofNat 3, Id.ofNat 9) ∈ t.danglingDependencies ∧
      (Id.ofNat 4, Id.ofNat 2) ∈ t.danglingDependencies := by
  have distinct : (sharedBase.filterMap Edit.makes?).Nodup := by decide
  have present :
      ((after (Id.ofNat 7) "Part Studio 1" sharedBase).nodes.get? (Id.ofNat 2)).isSome := by
    decide +kernel
  obtain ⟨node, present⟩ := Option.isSome_iff_exists.mp present
  obtain ⟨t, deleted, order, _, _, shown, dangling, _⟩ :=
    delete_exact (Id.ofNat 7) "Part Studio 1" sharedBase distinct none present
  refine ⟨node.op, t, deleted, ?_, ?_, ?_, ?_⟩
  · rw [order]
    decide +kernel
  · rw [shown]
    decide +kernel
  · exact (dangling _ _).mpr ⟨by decide, .inl (by decide +kernel)⟩
  · exact (dangling _ _).mpr ⟨by decide, .inr ⟨rfl, _, rfl, by decide +kernel⟩⟩

end Parametric.Studio
