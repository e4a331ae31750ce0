import Mathlib.Data.List.Basic
import Mathlib.Data.List.Nodup
import Mathlib.Logic.Relation
import Parametric.Feature.Studio
import Parametric.Proofs.SortedMap
/-! The feature tree over whole runs of edits.

Nodes, order, cutoff and dependencies are kept apart, and every edit touches
some of them. What a run keeps is stated once; an edit either leaves the
skeleton of the tree alone, appends a fresh feature, or deletes one.
-/

set_option autoImplicit false

namespace Parametric.Studio

/-- One feature was built from another that is still present. -/
def DependsOn (s : Studio) (id dependency : OpId) : Prop :=
  s.contains dependency = true ∧
    ∃ node, s.nodes.get? id = some node ∧ dependency ∈ node.dependencies

structure WellFormed (s : Studio) : Prop where
  distinct : s.order.Nodup
  keys : s.order.Perm s.nodes.keys
  ids : ∀ id node, s.nodes.get? id = some node → node.op.id = id
  cutoff : ∀ position, s.cutoff = some position → position ≤ s.order.length
  dependencies_distinct : ∀ id node, s.nodes.get? id = some node → node.dependencies.Nodup
  /-- Present dependencies stand before the feature: both are in the order, in this order. -/
  dependencies_before : ∀ id dependency, s.DependsOn id dependency →
    [dependency, id].Sublist s.order
  datumPlanes : ∀ d : DatumPlane, s.planes.contains d.id = true

namespace WellFormed

variable {s : Studio}

theorem mem_order (wellFormed : s.WellFormed) {id : OpId} :
    id ∈ s.order ↔ s.contains id = true :=
  wellFormed.keys.mem_iff.trans SortedMap.mem_keys

theorem effectiveLength_le (wellFormed : s.WellFormed) : s.effectiveLength ≤ s.order.length := by
  unfold effectiveLength
  cases cutoff : s.cutoff with
  | none => exact Nat.le_refl _
  | some position => exact wellFormed.cutoff position cutoff

theorem idxOf_lt_of_sublist {a b : OpId} {order : List OpId} (distinct : order.Nodup)
    (before : [a, b].Sublist order) : order.idxOf a < order.idxOf b := by
  induction order with
  | nil => cases before
  | cons first rest ih =>
    obtain ⟨absent, distinctRest⟩ := List.nodup_cons.mp distinct
    cases before with
    | cons _ later =>
      have apart : ∀ x ∈ [a, b], first ≠ x := fun x member same =>
        absent (same ▸ later.subset member)
      rw [List.idxOf_cons_ne _ (apart a (by simp)), List.idxOf_cons_ne _ (apart b (by simp))]
      exact Nat.succ_lt_succ (ih distinctRest later)
    | cons_cons _ later =>
      have apart : a ≠ b := fun same => absent (same ▸ later.subset (by simp))
      rw [List.idxOf_cons_self, List.idxOf_cons_ne _ apart]
      exact Nat.succ_pos _

theorem idxOf_lt (wellFormed : s.WellFormed) {id dependency : OpId}
    (depends : Relation.TransGen s.DependsOn id dependency) :
    s.order.idxOf dependency < s.order.idxOf id := by
  induction depends with
  | single direct =>
    exact idxOf_lt_of_sublist wellFormed.distinct (wellFormed.dependencies_before _ _ direct)
  | tail _ direct ih =>
    have step := idxOf_lt_of_sublist wellFormed.distinct (wellFormed.dependencies_before _ _ direct)
    exact Nat.lt_trans step ih

theorem acyclic (wellFormed : s.WellFormed) (id : OpId) :
    ¬ Relation.TransGen s.DependsOn id id := by
  intro cycle
  exact Nat.lt_irrefl _ (wellFormed.idxOf_lt cycle)

end WellFormed

/-! ## What a run keeps -/

/-- A well-formed tree whose identifiers, those of deleted features included, are among the
ones made so far. -/
structure Kept (made : List OpId) (s : Studio) : Prop extends WellFormed s where
  order_made : ∀ id ∈ s.order, id ∈ made
  dependencies_made : ∀ id node, s.nodes.get? id = some node → ∀ d ∈ node.dependencies, d ∈ made

theorem Kept.mono {fewer more : List OpId} {s : Studio} (kept : s.Kept fewer)
    (included : fewer ⊆ more) : s.Kept more where
  toWellFormed := kept.toWellFormed
  order_made id member := included (kept.order_made id member)
  dependencies_made id node found d member :=
    included (kept.dependencies_made id node found d member)

theorem Kept.get?_eq_none {made : List OpId} {s : Studio} (kept : s.Kept made) {id : OpId}
    (unused : id ∉ made) : s.nodes.get? id = none := by
  refine Option.eq_none_iff_forall_ne_some.mpr fun node found => unused ?_
  exact kept.order_made id (kept.mem_order.mpr (SortedMap.contains_of_get? found))

/-- What the tree needs of a node. -/
def skeleton (node : Node) : OpId × List OpId :=
  (node.op.id, node.dependencies)

theorem Kept.of_skeleton {made : List OpId} {s t : Studio} (kept : s.Kept made)
    (nodes : ∀ id, (t.nodes.get? id).map skeleton = (s.nodes.get? id).map skeleton)
    (order : t.order = s.order)
    (cutoff : ∀ position, t.cutoff = some position → position ≤ s.order.length)
    (planes : ∀ id, s.planes.contains id = true → t.planes.contains id = true) :
    t.Kept made := by
  have present : ∀ id, t.contains id = s.contains id := by
    intro id
    have same := congrArg Option.isSome (nodes id)
    simpa [contains, SortedMap.contains] using same
  -- Each node of the new studio has the identifier and dependencies of an old one.
  have counterpart : ∀ id node, t.nodes.get? id = some node →
      ∃ old, s.nodes.get? id = some old ∧ old.op.id = node.op.id ∧
        old.dependencies = node.dependencies := by
    intro id node found
    have same := nodes id
    rw [found] at same
    obtain ⟨old, foundOld, equal⟩ := Option.map_eq_some_iff.mp same.symm
    exact ⟨old, foundOld, congrArg Prod.fst equal, congrArg Prod.snd equal⟩
  exact {
    distinct := order ▸ kept.distinct
    keys := by
      apply SortedMap.perm_keys (order ▸ kept.distinct)
      intro id
      rw [order, kept.mem_order, ← present]
      rfl
    ids := by
      intro id node found
      obtain ⟨old, foundOld, same, _⟩ := counterpart id node found
      exact same ▸ kept.ids id old foundOld
    cutoff := by rw [order]; exact cutoff
    dependencies_distinct := by
      intro id node found
      obtain ⟨old, foundOld, _, same⟩ := counterpart id node found
      exact same ▸ kept.dependencies_distinct id old foundOld
    dependencies_before := by
      rintro id d ⟨there, node, found, member⟩
      obtain ⟨old, foundOld, _, same⟩ := counterpart id node found
      rw [order]
      exact kept.dependencies_before id d ⟨present d ▸ there, old, foundOld, same ▸ member⟩
    datumPlanes := fun d => planes _ (kept.datumPlanes d)
    order_made := by rw [order]; exact kept.order_made
    dependencies_made := by
      intro id node found d member
      obtain ⟨old, foundOld, _, same⟩ := counterpart id node found
      exact kept.dependencies_made id old foundOld d (same ▸ member) }

theorem Kept.append {made : List OpId} {s : Studio} (kept : s.Kept made) {fresh : OpId}
    {name : String} {feature : Feature} {dependencies : List OpId} (unused : fresh ∉ made)
    (distinct : dependencies.Nodup) (present : ∀ d ∈ dependencies, s.contains d = true) :
    (s.append (.new fresh name feature) dependencies).Kept (fresh :: made) := by
  let op := Op.new fresh name feature
  have absent : op.id ∉ s.order := fun member => unused (kept.order_made _ member)
  have found : ∀ {id : OpId} {node : Node}, (s.append op dependencies).nodes.get? id = some node →
      (id = op.id ∧ node = ⟨op, dependencies⟩) ∨ s.nodes.get? id = some node := by
    intro id node lookup
    simp only [Studio.append, SortedMap.get?_insert] at lookup
    split at lookup
    · next same => exact .inl ⟨same, (Option.some.inj lookup).symm⟩
    · exact .inr lookup
  have there : ∀ id, (s.append op dependencies).contains id = true ↔
      id = op.id ∨ s.contains id = true := fun id => SortedMap.contains_insert
  have distinctOrder : (s.order ++ [op.id]).Nodup := by
    rw [List.nodup_append]
    refine ⟨kept.distinct, List.nodup_singleton _, fun a member b single same => absent ?_⟩
    rw [← List.mem_singleton.mp single, ← same]
    exact member
  exact {
    distinct := distinctOrder
    keys := by
      apply SortedMap.perm_keys distinctOrder
      intro id
      have here := there id
      unfold contains at here
      rw [List.mem_append, List.mem_singleton, kept.mem_order, here, or_comm]
      rfl
    ids := by
      intro id node lookup
      rcases found lookup with ⟨rfl, rfl⟩ | old
      · rfl
      · exact kept.ids id node old
    cutoff := by
      intro position cutoff
      cases cutoff
    dependencies_distinct := by
      intro id node lookup
      rcases found lookup with ⟨rfl, rfl⟩ | old
      · exact distinct
      · exact kept.dependencies_distinct id node old
    dependencies_before := by
      rintro id d ⟨presentNow, node, lookup, member⟩
      rcases found lookup with ⟨rfl, rfl⟩ | old
      · have earlier := kept.mem_order.mpr (present d member)
        exact (List.singleton_sublist.mpr earlier).append (List.Sublist.refl [op.id])
      · -- A dependency of an old feature is no fresh identifier, so it was present before.
        have known := kept.dependencies_made id node old d member
        have before : s.contains d = true := by
          rcases (there d).mp presentNow with rfl | before
          · exact absurd known unused
          · exact before
        exact (kept.dependencies_before id d ⟨before, node, old, member⟩).trans
          (List.sublist_append_left _ _)
    datumPlanes := kept.datumPlanes
    order_made := by
      intro id member
      rcases List.mem_append.mp member with old | new
      · exact List.mem_cons_of_mem _ (kept.order_made id old)
      · exact List.mem_singleton.mp new ▸ List.mem_cons_self
    dependencies_made := by
      intro id node lookup d member
      apply List.mem_cons_of_mem
      rcases found lookup with ⟨rfl, rfl⟩ | old
      · exact kept.order_made d (kept.mem_order.mpr (present d member))
      · exact kept.dependencies_made id node old d member }

theorem delete?_eq_some {s t : Studio} {id : OpId} {op : Op}
    (deleted : s.delete? id = some (op, t)) : ∃ node, s.nodes.get? id = some node ∧
      t.nodes = s.nodes.erase id ∧ t.planes = s.planes ∧
      t.sketches = match node.op.feature.ownedSketch? with
        | some sketch => s.sketches.erase sketch
        | none => s.sketches := by
  unfold delete? at deleted
  split at deleted
  · cases deleted
  · next node found =>
    cases deleted
    exact ⟨node, found, rfl, rfl, rfl⟩

/-- Deleting a feature leaves dangling dependencies, but those still present keep their place. -/
theorem Kept.delete {made : List OpId} {s t : Studio} (kept : s.Kept made) {id : OpId} {op : Op}
    (deleted : s.delete? id = some (op, t)) : t.Kept made := by
  unfold delete? at deleted
  cases lookup : s.nodes.get? id with
  | none => rw [lookup] at deleted; cases deleted
  | some removed =>
    rw [lookup] at deleted
    have inOrder : id ∈ s.order := kept.mem_order.mpr (SortedMap.contains_of_get? lookup)
    have found : ∀ {other : OpId} {node : Node}, (s.nodes.erase id).get? other = some node →
        other ≠ id ∧ s.nodes.get? other = some node := by
      intro other node present
      rw [SortedMap.get?_erase] at present
      split at present
      · cases present
      · next different => exact ⟨different, present⟩
    have length : (s.order.erase id).length = s.order.length - 1 := List.length_erase_of_mem inOrder
    cases deleted
    exact {
      distinct := kept.distinct.erase id
      keys := by
        apply SortedMap.perm_keys (kept.distinct.erase id)
        intro other
        rw [kept.distinct.mem_erase_iff, SortedMap.contains_erase, kept.mem_order]
        rfl
      ids := fun other node present => kept.ids other node (found present).2
      cutoff := by
        intro position cutoff
        have index : ∃ index, s.indexOf? id = some index := by
          rw [← Option.isSome_iff_exists, indexOf?, List.findIdx?_isSome]
          simpa using inOrder
        obtain ⟨index, place⟩ := index
        have inside : index < s.order.length := (List.findIdx?_eq_some_iff_findIdx_eq.mp place).1
        -- The order is one shorter, and so is the part before a cutoff that the feature was in.
        simp only [place, length] at cutoff ⊢
        cases old : s.cutoff with
        | none => rw [old] at cutoff; cases cutoff
        | some position =>
          have bound := kept.cutoff position old
          simp only [old, Option.some.injEq] at cutoff
          split at cutoff <;> omega
      dependencies_distinct := fun other node present =>
        kept.dependencies_distinct other node (found present).2
      dependencies_before := by
        rintro other d ⟨presentNow, node, present, member⟩
        obtain ⟨different, old⟩ := found present
        obtain ⟨apart, before⟩ := SortedMap.contains_erase.mp presentNow
        -- Erasing the feature from the order leaves each pair without it in place.
        have pair := (kept.dependencies_before other d ⟨before, node, old, member⟩).erase id
        rwa [List.erase_of_not_mem (by simp [apart.symm, different.symm])] at pair
      datumPlanes := kept.datumPlanes
      order_made := fun other member => kept.order_made other (List.mem_of_mem_erase member)
      dependencies_made := fun other node present =>
        kept.dependencies_made other node (found present).2 }

/-! ## Edits -/

/-- An edit of a studio. Identifiers of new features and sketches are supplied, and so is the order
in which the owner of a profile is looked for. -/
inductive Edit where
  | addSketch (freshSketch : SketchId) (fresh : OpId) (name : String) (plane : Option PlaneId)
  | addExtrude (fresh : OpId) (name : String) (profile : Profile) (direction : ExtrudeDirection)
      (depth : Dimension) (order : SearchOrder := .byId)
  | addRevolve (fresh : OpId) (name : String) (profile : Profile) (choice : AxisChoice)
      (angle : Dimension) (order : SearchOrder := .byId)
  | addFillet (fresh : OpId) (name : String) (target : OpId) (edges : List Nat)
      (radius : Dimension)
  | addBoolean (fresh : OpId) (name : String) (operation : BooleanOperation) (target tool : OpId)
  | update (id : OpId) (change : Op → Op)
  | setSuppressed (id : OpId) (suppressed : Bool)
  | delete (id : OpId)
  | renameParameter (old fresh : String) (takes : String → Bool := Formula.anyWord)
  | addPlane (plane : Plane)
  | setCutoff (position : Option Nat)
  | rollbackTo (id : OpId)
  | rollbackToEnd
  | editSketch (id : SketchId) (change : Sketch → Sketch)

def editSketch (s : Studio) (id : SketchId) (change : Sketch → Sketch) : Studio :=
  match s.sketches.get? id with
  | none => s
  | some sketch => { s with sketches := s.sketches.insert id (change sketch) }

/-- The studio after an edit; a refused edit changes nothing. -/
def Edit.apply (s : Studio) : Edit → Studio
  | addSketch freshSketch fresh name plane => s.addSketch freshSketch fresh name plane
  | addExtrude fresh name profile direction depth order =>
    s.addExtrude fresh name profile direction depth order
  | addRevolve fresh name profile choice angle order =>
    s.addRevolve fresh name profile choice angle order
  | addFillet fresh name target edges radius => s.addFillet fresh name target edges radius
  | addBoolean fresh name operation target tool => s.addBoolean fresh name operation target tool
  | update id change => (s.update? id change).getD s
  | setSuppressed id suppressed => (s.setSuppressed? id suppressed).getD s
  | delete id => ((s.delete? id).map (·.2)).getD s
  | renameParameter old fresh takes => s.renameParameter old fresh takes
  | addPlane plane => s.addPlane plane
  | setCutoff position => s.setCutoff position
  | rollbackTo id => (s.rollbackTo? id).getD s
  | rollbackToEnd => s.rollbackToEnd
  | editSketch id change => s.editSketch id change

def Edit.makes? : Edit → Option OpId
  | addSketch _ fresh _ _ | addExtrude fresh _ _ _ _ _ | addRevolve fresh _ _ _ _ _
  | addFillet fresh _ _ _ _ | addBoolean fresh _ _ _ _ => some fresh
  | _ => none

theorem nodup_eraseDups (ids : List OpId) : ids.eraseDups.Nodup := by
  -- What is left after each identifier is filtered, so the induction is on the length.
  generalize size : ids.length = n
  induction n using Nat.strongRecOn generalizing ids with
  | ind n ih =>
    cases ids with
    | nil => exact List.nodup_nil
    | cons id rest =>
      rw [List.eraseDups_cons, List.nodup_cons]
      have shorter : (rest.filter fun b => !b == id).length < n := by
        have := List.length_filter_le (fun b => !b == id) rest
        rw [List.length_cons] at size
        omega
      refine ⟨fun member => ?_, ih _ shorter _ rfl⟩
      have kept := (List.mem_filter.mp (List.mem_eraseDups.mp member)).2
      simp at kept

theorem existing_nodup (s : Studio) (candidates : List OpId) : (s.existing candidates).Nodup :=
  nodup_eraseDups _

theorem existing_present {s : Studio} {candidates : List OpId} {id : OpId}
    (member : id ∈ s.existing candidates) : s.contains id = true := by
  unfold existing at member
  rw [List.mem_eraseDups] at member
  exact (List.mem_filter.mp member).2

theorem sketchOp?_present {s : Studio} (wellFormed : s.WellFormed) {sketch : SketchId} {id : OpId}
    {order : SearchOrder} (owner : s.sketchOp? sketch order = some id) : s.contains id = true := by
  obtain ⟨node, found, rfl⟩ := Option.map_eq_some_iff.mp owner
  have listed := (order.perm _).mem_iff.mp (List.mem_of_find?_eq_some found)
  obtain ⟨key, lookup⟩ := SortedMap.mem_values.mp listed
  rw [wellFormed.ids key node lookup]
  exact SortedMap.contains_of_get? lookup

theorem profileDependencies_nodup (s : Studio) (profile : Profile) (order : SearchOrder) :
    (s.profileDependencies profile order).Nodup := by
  cases profile with
  | sketch id =>
    change (s.sketchOp? id order).toList.Nodup
    cases s.sketchOp? id order <;> simp
  | face face => exact s.existing_nodup _

theorem profileDependencies_present {s : Studio} (wellFormed : s.WellFormed) (profile : Profile)
    (order : SearchOrder) : ∀ d ∈ s.profileDependencies profile order, s.contains d = true := by
  intro d member
  cases profile with
  | sketch id => exact sketchOp?_present wellFormed (Option.mem_toList.mp member)
  | face face => exact existing_present member

section

variable {made : List OpId} {s : Studio}

theorem update?_eq_some {id : OpId} {change : Op → Op} {t : Studio}
    (updated : s.update? id change = some t) : ∃ node, s.nodes.get? id = some node ∧
      (change node.op).id = id ∧
      t = { s with nodes := s.nodes.insert id { node with op := change node.op } } := by
  unfold update? at updated
  split at updated
  · cases updated
  · next node found =>
    dsimp only at updated
    split at updated
    · next same => exact ⟨node, found, same, (Option.some.inj updated).symm⟩
    · cases updated

theorem Kept.update (kept : s.Kept made) {id : OpId} {change : Op → Op} {t : Studio}
    (updated : s.update? id change = some t) : t.Kept made := by
  obtain ⟨node, lookup, same, rfl⟩ := update?_eq_some updated
  refine kept.of_skeleton ?_ rfl kept.cutoff fun _ present => present
  intro other
  rw [SortedMap.get?_insert]
  split
  · next asked =>
    subst asked
    rw [lookup]
    simp [skeleton, same, kept.ids other node lookup]
  · rfl

theorem Kept.renameParameter (kept : s.Kept made) (old fresh : String) (takes : String → Bool) :
    (s.renameParameter old fresh takes).Kept made := by
  refine kept.of_skeleton ?_ rfl kept.cutoff fun _ present => present
  intro id
  rw [Studio.renameParameter, SortedMap.get?_map, Option.map_map]
  rfl

theorem Kept.rollbackTo (kept : s.Kept made) {id : OpId} {t : Studio}
    (rolled : s.rollbackTo? id = some t) : t.Kept made := by
  obtain ⟨index, place, rfl⟩ := Option.map_eq_some_iff.mp rolled
  have inside : index < s.order.length := (List.findIdx?_eq_some_iff_findIdx_eq.mp place).1
  refine kept.of_skeleton (fun _ => rfl) rfl ?_ fun _ present => present
  intro position cutoff
  cases cutoff
  exact inside

theorem Kept.setCutoff (kept : s.Kept made) (position : Option Nat) :
    (s.setCutoff position).Kept made := by
  refine kept.of_skeleton (fun _ => rfl) rfl ?_ fun _ present => present
  intro reached cutoff
  obtain ⟨asked, _, rfl⟩ := Option.map_eq_some_iff.mp cutoff
  exact Nat.min_le_right _ _

theorem Kept.addPlane (kept : s.Kept made) (plane : Plane) : (s.addPlane plane).Kept made :=
  kept.of_skeleton (fun _ => rfl) rfl kept.cutoff fun _ present =>
    SortedMap.contains_insert.mpr (.inr present)

theorem Kept.setSketches (kept : s.Kept made) (sketches : SortedMap SketchId Sketch) :
    ({ s with sketches } : Studio).Kept made :=
  kept.of_skeleton (fun _ => rfl) rfl kept.cutoff fun _ present => present

theorem Kept.editSketch (kept : s.Kept made) (id : SketchId) (change : Sketch → Sketch) :
    (s.editSketch id change).Kept made := by
  unfold Studio.editSketch
  split
  · exact kept
  · exact kept.setSketches _

theorem Kept.apply (kept : s.Kept made) (edit : Edit)
    (fresh : ∀ id, edit.makes? = some id → id ∉ made) :
    (edit.apply s).Kept (edit.makes?.toList ++ made) := by
  -- A refused edit gives back the studio it was applied to.
  have refused : ∀ {next : Option Studio}, (∀ t, next = some t → t.Kept made) →
      (next.getD s).Kept made := by
    intro next accepted
    cases next with
    | none => exact kept
    | some t => exact accepted t rfl
  cases edit with
  | addSketch freshSketch id name plane =>
    exact (kept.setSketches _).append (fresh id rfl) List.nodup_nil (by simp)
  | addExtrude id name profile direction depth order =>
    exact kept.append (fresh id rfl) (s.profileDependencies_nodup profile order)
      (profileDependencies_present kept.toWellFormed profile order)
  | addRevolve id name profile choice angle order =>
    exact kept.append (fresh id rfl) (s.profileDependencies_nodup profile order)
      (profileDependencies_present kept.toWellFormed profile order)
  | addFillet id name target edges radius =>
    exact kept.append (fresh id rfl) (s.existing_nodup _) fun _ => existing_present
  | addBoolean id name operation target tool =>
    exact kept.append (fresh id rfl) (s.existing_nodup _) fun _ => existing_present
  | update id change => exact refused fun t updated => kept.update updated
  | setSuppressed id suppressed => exact refused fun t updated => kept.update updated
  | delete id =>
    refine refused fun t deleted => ?_
    obtain ⟨⟨op, _⟩, removed, rfl⟩ := Option.map_eq_some_iff.mp deleted
    exact kept.delete removed
  | renameParameter old new takes => exact kept.renameParameter old new takes
  | addPlane plane => exact kept.addPlane plane
  | setCutoff position => exact kept.setCutoff position
  | rollbackTo id => exact refused fun t rolled => kept.rollbackTo rolled
  | rollbackToEnd => exact kept.setCutoff none
  | editSketch id change => exact kept.editSketch id change

theorem Kept.run (kept : s.Kept made) (edits : List Edit)
    (distinct : (edits.filterMap Edit.makes?).Nodup)
    (fresh : ∀ id ∈ edits.filterMap Edit.makes?, id ∉ made) :
    (edits.foldl Edit.apply s).WellFormed := by
  -- The identifiers made so far grow along the run, those of deleted features included.
  induction edits generalizing s made with
  | nil => exact kept.toWellFormed
  | cons edit rest ih =>
    have next := kept.apply edit fun id makes => fresh id (by simp [makes])
    cases makes : edit.makes? with
    | none =>
      simp only [List.filterMap_cons, makes] at distinct fresh
      rw [makes] at next
      exact ih next distinct fresh
    | some id =>
      simp only [List.filterMap_cons, makes, List.nodup_cons] at distinct fresh
      rw [makes] at next
      refine ih next distinct.2 fun other member => ?_
      have apart : other ≠ id := fun same => distinct.1 (same ▸ member)
      simpa [apart] using fresh other (List.mem_cons_of_mem _ member)

end

theorem new_kept (fresh : StudioId) (name : String) : (new fresh name).Kept [] where
  distinct := List.nodup_nil
  keys := List.Perm.refl _
  ids := by intro id node found; cases found
  cutoff := by intro position cutoff; cases cutoff
  dependencies_distinct := by intro id node found; cases found
  dependencies_before := by rintro id d ⟨present, _⟩; cases present
  datumPlanes := by
    intro d
    cases d <;> rfl
  order_made := by intro id member; cases member
  dependencies_made := by intro id node found; cases found

def after (fresh : StudioId) (name : String) (edits : List Edit) : Studio :=
  edits.foldl Edit.apply (new fresh name)

/-- Edits in any order and with any arguments keep the feature tree well formed, so the cutoff
lies within the order and no present feature depends on itself, as long as each new feature
gets an identifier of its own. -/
theorem edits_keep_tree (fresh : StudioId) (name : String) (edits : List Edit)
    (distinct : (edits.filterMap Edit.makes?).Nodup) :
    (after fresh name edits).WellFormed ∧
    (after fresh name edits).effectiveLength ≤ (after fresh name edits).order.length ∧
    ∀ id, ¬ Relation.TransGen (after fresh name edits).DependsOn id id := by
  have wellFormed : (after fresh name edits).WellFormed :=
    (new_kept fresh name).run edits distinct (by simp)
  exact ⟨wellFormed, wellFormed.effectiveLength_le, wellFormed.acyclic⟩

def deletedSketch : List Edit :=
  [.addSketch (Id.ofNat 10) (Id.ofNat 1) "Sketch 1" none,
    .addExtrude (Id.ofNat 2) "Extrude 1" (.sketch (Id.ofNat 10)) .positive (.literal 4.0),
    .addFillet (Id.ofNat 3) "Fillet 1" (Id.ofNat 2) [] (.literal 1.0),
    .rollbackTo (Id.ofNat 2), .delete (Id.ofNat 1)]

theorem edits_keep_tree_deletedSketch :
    (deletedSketch.filterMap Edit.makes?).Nodup ∧
    (after (Id.ofNat 7) "Part Studio 1" deletedSketch).danglingDependencies =
      [(Id.ofNat 2, Id.ofNat 1)] ∧
    (after (Id.ofNat 7) "Part Studio 1" deletedSketch).cutoff = some 1 ∧
    (after (Id.ofNat 7) "Part Studio 1" deletedSketch).WellFormed := by
  have distinct : (deletedSketch.filterMap Edit.makes?).Nodup := by decide
  exact ⟨distinct, by decide +kernel, by decide +kernel, (edits_keep_tree _ _ _ distinct).1⟩

end Parametric.Studio
