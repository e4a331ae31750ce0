import Parametric.Proofs.Session.Rebuild
import Parametric.Proofs.Sketch.Integrity
/-! The sketches of a studio and the features that own them, in every document of a session.

Features and sketches are kept apart, and the plane of a sketch is noted with both. They are
made and deleted together, and sketches are never taken over by other features, so each sketch
has one owner and each owner has its sketch.
-/

set_option autoImplicit false

namespace Parametric

def Feature.sketch? : Feature → Option (SketchId × PlaneId)
  | sketch id plane => some (id, plane)
  | _ => none

theorem Feature.ownedSketch?_eq (feature : Feature) :
    feature.ownedSketch? = feature.sketch?.map (·.1) := by
  cases feature <;> rfl

@[simp] theorem Feature.sketch?_mapDimensions (feature : Feature)
    (change : Nat → Dimension → Dimension) :
    (feature.mapDimensions change).sketch? = feature.sketch? := by
  cases feature <;> rfl

/-- A command changes a sketch by the operations of sketches, if it changes one at all. -/
def Session.Command.Draws : Command → Prop
  | editSketch _ _ edit => ∀ s t, edit s = .ok t → ∃ edits : List Sketch.Edit, t = s.after edits
  | _ => True

namespace Studio

open Session (Command)

variable {made more : List AnyId} {s t : Studio} {op : OpId} {sketch : SketchId}

def sketchAt? (s : Studio) (op : OpId) : Option (SketchId × PlaneId) :=
  (s.nodes.get? op).bind (·.op.feature.sketch?)

theorem owns_iff : s.Owns op sketch ↔ ∃ plane, s.sketchAt? op = some (sketch, plane) := by
  unfold Owns sketchAt?
  simp only [Feature.ownedSketch?_eq, Option.bind_eq_some_iff, Option.map_eq_some_iff]
  constructor
  · rintro ⟨node, found, ⟨_, plane⟩, has, rfl⟩
    exact ⟨plane, node, found, has⟩
  · rintro ⟨plane, node, found, has⟩
    exact ⟨node, found, _, has, rfl⟩

/-- Sketches and the features that own them are in step, with identifiers among those made so
far. -/
structure Sketched (made : List AnyId) (s : Studio) : Prop where
  tree : s.Kept (opIds made)
  made : ∀ sketch, s.sketches.contains sketch = true → ⟨.sketch, sketch⟩ ∈ made
  owner : ∀ sketch, s.sketches.contains sketch = true →
    ∃ op plane, s.sketchAt? op = some (sketch, plane)
  owner_unique : ∀ a b sketch p q, s.sketchAt? a = some (sketch, p) →
    s.sketchAt? b = some (sketch, q) → a = b
  stored : ∀ id sketch, s.sketches.get? id = some sketch → sketch.id = id
  plane : ∀ op id plane, s.sketchAt? op = some (id, plane) →
    (s.sketches.get? id).map (·.plane) = some plane ∧ s.planes.contains plane = true

namespace Sketched

theorem mono (sketched : s.Sketched made) (included : made ⊆ more) : s.Sketched more :=
  { sketched with
    tree := sketched.tree.mono fun _ member => mem_opIds.mpr (included (mem_opIds.mp member))
    made := fun sketch there => included (sketched.made sketch there) }

theorem new (fresh : StudioId) (name : String) : (new fresh name).Sketched made where
  tree := (new_kept fresh name).mono (List.nil_subset _)
  made _ there := nomatch there
  owner _ there := nomatch there
  owner_unique _ _ _ _ _ has := nomatch has
  stored _ _ found := nomatch found
  plane _ _ _ has := nomatch has

theorem of_same (sketched : s.Sketched made) (tree : t.Kept (opIds made))
    (owners : ∀ op, t.sketchAt? op = s.sketchAt? op) (sketches : t.sketches = s.sketches)
    (planes : t.planes = s.planes) : t.Sketched made where
  tree := tree
  made := by rw [sketches]; exact sketched.made
  owner := by simpa only [sketches, owners] using sketched.owner
  owner_unique := by simpa only [owners] using sketched.owner_unique
  stored := by rw [sketches]; exact sketched.stored
  plane := by simpa only [sketches, planes, owners] using sketched.plane

theorem touch (sketched : s.Sketched made) (now : Timestamp) : (s.touch now).Sketched made := by
  refine sketched.of_same ?_ (fun _ => rfl) rfl rfl
  exact sketched.tree.of_skeleton (fun _ => rfl) rfl sketched.tree.cutoff fun _ there => there

theorem sketchAt?_append (name : String) (feature : Feature) (dependencies : List OpId)
    (other : OpId) : (s.append (.new op name feature) dependencies).sketchAt? other =
      if other = op then feature.sketch? else s.sketchAt? other := by
  unfold sketchAt?
  rw [get?_append]
  split <;> rfl

theorem sketchAt?_append_other {name : String} {feature : Feature} {dependencies : List OpId}
    (absent : s.nodes.get? op = none) (noSketch : feature.sketch? = none) (other : OpId) :
    (s.append (.new op name feature) dependencies).sketchAt? other = s.sketchAt? other := by
  rw [sketchAt?_append]
  split
  · next same => rw [noSketch, same, sketchAt?, absent, Option.bind_none]
  · rfl

theorem update (sketched : s.Sketched made) {change : Op → Op}
    (updated : s.update? op change = some t)
    (same : ∀ o, (change o).feature.sketch? = o.feature.sketch?) : t.Sketched made := by
  have tree := sketched.tree.update updated
  obtain ⟨node, found, _, rfl⟩ := update?_eq_some updated
  refine sketched.of_same tree (fun other => ?_) rfl rfl
  unfold sketchAt?
  rw [SortedMap.get?_insert]
  split
  · next here => rw [here, found, Option.bind_some, Option.bind_some, same]
  · rfl

theorem rollbackTo (sketched : s.Sketched made) (rolled : s.rollbackTo? op = some t) :
    t.Sketched made := by
  have tree := sketched.tree.rollbackTo rolled
  obtain ⟨_, _, rfl⟩ := Option.map_eq_some_iff.mp rolled
  exact sketched.of_same tree (fun _ => rfl) rfl rfl

theorem renameParameter (sketched : s.Sketched made) (old fresh : String)
    (takes : String → Bool) : (s.renameParameter old fresh takes).Sketched made := by
  refine sketched.of_same (sketched.tree.renameParameter old fresh takes) (fun other => ?_) rfl rfl
  unfold sketchAt? Studio.renameParameter
  rw [SortedMap.get?_map]
  cases s.nodes.get? other with
  | none => rfl
  | some node => simp [Op.mapDimensions]

theorem addSketch_eq (kept : s.Kept (opIds made)) (fresh : SketchId) (op : OpId) (name : String)
    (given : Option PlaneId) : ∃ plane, s.planes.contains plane = true ∧
      s.addSketch fresh op name given =
        ({ s with sketches := s.sketches.insert fresh (.new fresh name plane) } : Studio).append
          (.new op name (.sketch fresh plane)) [] := by
  have top : s.planes.contains DatumPlane.xy.id = true := kept.datumPlanes .xy
  cases given with
  | none => exact ⟨_, top, rfl⟩
  | some id =>
    refine ⟨if s.planes.contains id then id else DatumPlane.xy.id, ?_, rfl⟩
    split
    · next there => exact there
    · exact top

theorem addSketch (sketched : s.Sketched made) (included : made ⊆ more) {fresh : SketchId}
    (name : String) (given : Option PlaneId) (unused : ⟨.sketch, fresh⟩ ∉ made)
    (supplied : ⟨.sketch, fresh⟩ ∈ more) (absent : s.nodes.get? op = none)
    (tree : (s.addSketch fresh op name given).Kept (opIds more)) :
    (s.addSketch fresh op name given).Sketched more := by
  obtain ⟨chosen, present, same⟩ := addSketch_eq sketched.tree fresh op name given
  rw [same] at tree ⊢
  generalize into : Studio.append _ _ _ = t at tree ⊢
  have sketches : t.sketches = s.sketches.insert fresh (.new fresh name chosen) := by
    rw [← into]
    rfl
  have planes : t.planes = s.planes := by
    rw [← into]
    rfl
  have owners : ∀ other, t.sketchAt? other =
      if other = op then some (fresh, chosen) else s.sketchAt? other := by
    intro other
    rw [← into]
    exact sketchAt?_append name _ [] other
  have ownerless : s.sketchAt? op = none := by rw [sketchAt?, absent, Option.bind_none]
  -- What old features own was made before, so it is not the new sketch.
  have apart : ∀ other id plane, s.sketchAt? other = some (id, plane) → id ≠ fresh := by
    rintro other id plane has rfl
    obtain ⟨sketch, found, _⟩ := Option.map_eq_some_iff.mp (sketched.plane other id plane has).1
    exact unused (sketched.made id (SortedMap.contains_of_get? found))
  constructor
  case tree => exact tree
  case made =>
    intro sketch there
    rw [sketches, SortedMap.contains_insert] at there
    rcases there with rfl | old
    · exact supplied
    · exact included (sketched.made sketch old)
  case owner =>
    intro sketch there
    rw [sketches, SortedMap.contains_insert] at there
    rcases there with rfl | old
    · exact ⟨op, chosen, by rw [owners, if_pos rfl]⟩
    · obtain ⟨other, plane, has⟩ := sketched.owner sketch old
      refine ⟨other, plane, ?_⟩
      rw [owners, if_neg]
      · exact has
      · rintro rfl
        rw [ownerless] at has
        cases has
  case owner_unique =>
    intro a b sketch p q first second
    rw [owners] at first second
    split at first <;> split at second
    · next one other => exact one.trans other.symm
    · cases first
      exact absurd rfl (apart b _ q second)
    · cases second
      exact absurd rfl (apart a _ p first)
    · exact sketched.owner_unique a b sketch p q first second
  case stored =>
    intro id sketch found
    rw [sketches, SortedMap.get?_insert] at found
    split at found
    · next same =>
      cases found
      exact same.symm
    · exact sketched.stored id sketch found
  case plane =>
    intro other id plane has
    rw [owners] at has
    rw [sketches, SortedMap.get?_insert, planes]
    split at has
    · cases has
      exact ⟨by rw [if_pos rfl]; rfl, present⟩
    · rw [if_neg (apart other id plane has)]
      exact sketched.plane other id plane has

theorem sketchAt?_delete {removed : Op} (deleted : s.delete? op = some (removed, t))
    (other : OpId) : t.sketchAt? other = if other = op then none else s.sketchAt? other := by
  obtain ⟨_, _, nodes, _⟩ := delete?_eq_some deleted
  unfold sketchAt?
  rw [nodes, SortedMap.get?_erase]
  split <;> rfl

theorem get?_sketches_delete {removed : Op} (deleted : s.delete? op = some (removed, t))
    (id : SketchId) : t.sketches.get? id =
      if (s.sketchAt? op).map (·.1) = some id then none else s.sketches.get? id := by
  obtain ⟨node, found, _, _, sketches⟩ := delete?_eq_some deleted
  rw [sketchAt?, found, Option.bind_some, ← Feature.ownedSketch?_eq, sketches]
  cases node.op.feature.ownedSketch? with
  | none => simp
  | some sketch => simp [SortedMap.get?_erase, eq_comm]

theorem delete (sketched : s.Sketched made) {removed : Op}
    (deleted : s.delete? op = some (removed, t)) : t.Sketched made := by
  have sketches := get?_sketches_delete deleted
  have owners := sketchAt?_delete deleted
  obtain ⟨_, _, _, planes, _⟩ := delete?_eq_some deleted
  have kept : ∀ id, t.sketches.contains id = true →
      s.sketches.contains id = true ∧ (s.sketchAt? op).map (·.1) ≠ some id := by
    intro id there
    unfold SortedMap.contains at there
    rw [sketches] at there
    split at there
    · cases there
    · next other => exact ⟨there, other⟩
  constructor
  case tree => exact sketched.tree.delete deleted
  case made => exact fun sketch there => sketched.made sketch (kept sketch there).1
  case owner =>
    intro sketch there
    obtain ⟨old, foreign⟩ := kept sketch there
    obtain ⟨owner, plane, has⟩ := sketched.owner sketch old
    refine ⟨owner, plane, ?_⟩
    rw [owners, if_neg]
    · exact has
    · rintro rfl
      exact foreign (by rw [has]; rfl)
  case owner_unique =>
    intro a b sketch p q first second
    rw [owners, Option.ite_none_left_eq_some] at first second
    exact sketched.owner_unique a b sketch p q first.2 second.2
  case stored =>
    intro id sketch found
    rw [sketches, Option.ite_none_left_eq_some] at found
    exact sketched.stored id sketch found.2
  case plane =>
    intro other id plane has
    rw [owners, Option.ite_none_left_eq_some] at has
    obtain ⟨apart, has⟩ := has
    rw [sketches, if_neg, planes]
    · exact sketched.plane other id plane has
    · intro owned
      obtain ⟨⟨_, q⟩, own, rfl⟩ := Option.map_eq_some_iff.mp owned
      exact apart (sketched.owner_unique other op _ plane q has own)

theorem editSketch (sketched : s.Sketched made) {id : SketchId} {change : Sketch → Sketch}
    (keeps : ∀ sketch, (change sketch).id = sketch.id ∧ (change sketch).plane = sketch.plane) :
    (s.editSketch id change).Sketched made := by
  unfold Studio.editSketch
  split
  · exact sketched
  · next held found =>
    have same : ∀ other, (s.sketches.insert id (change held)).contains other = true ↔
        s.sketches.contains other = true := by
      intro other
      rw [SortedMap.contains_insert]
      refine or_iff_right_of_imp ?_
      rintro rfl
      exact SortedMap.contains_of_get? found
    constructor
    case tree => exact sketched.tree.setSketches _
    case made => exact fun sketch there => sketched.made sketch ((same sketch).mp there)
    case owner => exact fun sketch there => sketched.owner sketch ((same sketch).mp there)
    case owner_unique => exact sketched.owner_unique
    case stored =>
      intro other sketch there
      rw [SortedMap.get?_insert] at there
      split at there
      · next own =>
        cases there
        rw [own, (keeps held).1]
        exact sketched.stored id held found
      · exact sketched.stored other sketch there
    case plane =>
      intro op other plane has
      have before := sketched.plane op other plane has
      refine ⟨?_, before.2⟩
      rw [SortedMap.get?_insert]
      split
      · next own =>
        rw [own, found] at before
        rw [Option.map_some, (keeps held).2]
        exact before.1
      · exact before.1

end Sketched

theorem makes_of_performs {c : Command} {e : Edit} (performs : c.Performs e) {op : OpId}
    (makes : e.makes? = some op) : ⟨.op, op⟩ ∈ c.makes := by
  cases performs <;> cases makes <;> simp [Command.makes]

theorem Sketched.perform (sketched : s.Sketched made) {c : Command} {e : Edit}
    (performs : c.Performs e) (draws : c.Draws) (fresh : ∀ id ∈ c.makes, id ∉ made) :
    (e.apply s).Sketched (c.makes ++ made) := by
  have included : made ⊆ c.makes ++ made := List.subset_append_right _ _
  have later := sketched.mono included
  have unused : ∀ op, e.makes? = some op → op ∉ opIds made := fun op makes member =>
    fresh _ (makes_of_performs performs makes) (mem_opIds.mp member)
  have absent : ∀ op, e.makes? = some op → s.nodes.get? op = none := fun op makes =>
    sketched.tree.get?_eq_none (unused op makes)
  have tree : (e.apply s).Kept (opIds (c.makes ++ made)) := by
    refine (sketched.tree.apply e unused).mono fun op member => mem_opIds.mpr ?_
    rcases List.mem_append.mp member with new | old
    · exact List.mem_append_left _ (makes_of_performs performs (Option.mem_toList.mp new))
    · exact included (mem_opIds.mp old)
  have refused : ∀ {next : Option Studio},
      (∀ t, next = some t → t.Sketched (c.makes ++ made)) →
      (next.getD s).Sketched (c.makes ++ made) := by
    intro next accepted
    cases next with
    | none => exact later
    | some t => exact accepted t rfl
  cases performs with
  | createSketch studio freshSketch new name given plane =>
    refine sketched.addSketch included name plane (fresh _ ?_) ?_ (absent new rfl) tree
    · simp [Command.makes]
    · simp [Command.makes]
  | createExtrude | createRevolve | createFillet | createBoolean =>
    exact later.of_same tree (sketchAt?_append_other (absent _ rfl) rfl) rfl rfl
  | deleteOp studio op =>
    refine refused fun t deleted => ?_
    obtain ⟨⟨removed, _⟩, outcome, rfl⟩ := Option.map_eq_some_iff.mp deleted
    exact later.delete outcome
  | setSuppressed studio op suppressed =>
    exact refused fun t updated => later.update updated fun _ => rfl
  | setDimension studio op index input change =>
    exact refused fun t updated => later.update updated fun _ => Feature.sketch?_mapDimensions _ _
  | renameOp studio op name =>
    exact refused fun t updated => later.update updated fun _ => rfl
  | setCutoff studio position => exact later.of_same tree (fun _ => rfl) rfl rfl
  | rollbackTo studio op => exact refused fun t rolled => later.rollbackTo rolled
  | editSketch studio sketch edit =>
    refine later.editSketch fun t => ?_
    cases answer : edit t with
    | error reason => exact ⟨rfl, rfl⟩
    | ok edited =>
      obtain ⟨edits, rfl⟩ := draws t edited answer
      have kept := t.after_kept edits
      simp only [Prod.mk.injEq] at kept
      exact ⟨kept.1, kept.2.2⟩
  | renameParameter id name old takes => exact later.renameParameter old name takes

section

variable (sketched : s.Sketched made)

include sketched

theorem Sketched.contains_iff :
    s.sketches.contains sketch = true ↔ ∃ op, s.Owns op sketch := by
  constructor
  · intro there
    obtain ⟨op, plane, has⟩ := sketched.owner sketch there
    exact ⟨op, owns_iff.mpr ⟨plane, has⟩⟩
  · rintro ⟨op, owns⟩
    obtain ⟨plane, has⟩ := owns_iff.mp owns
    obtain ⟨_, found, _⟩ := Option.map_eq_some_iff.mp (sketched.plane op sketch plane has).1
    exact SortedMap.contains_of_get? found

theorem Sketched.owns_unique {a b : OpId} (first : s.Owns a sketch) (second : s.Owns b sketch) :
    a = b := by
  obtain ⟨p, has⟩ := owns_iff.mp first
  obtain ⟨q, has'⟩ := owns_iff.mp second
  exact sketched.owner_unique a b sketch p q has has'

theorem Sketched.plane_eq {node : Node} {plane : PlaneId} (found : s.nodes.get? op = some node)
    (feature : node.op.feature = .sketch sketch plane) :
    (∃ stored, s.sketches.get? sketch = some stored ∧ stored.plane = plane) ∧
      s.planes.contains plane = true := by
  have has : s.sketchAt? op = some (sketch, plane) := by
    rw [sketchAt?, found, Option.bind_some, feature]
    rfl
  obtain ⟨same, present⟩ := sketched.plane op sketch plane has
  exact ⟨Option.map_eq_some_iff.mp same, present⟩

theorem Sketched.find?_owner {nodes : List Node} (perm : nodes.Perm s.nodes.values)
    (sketch : SketchId) :
    (nodes.find? (·.op.feature.ownedSketch? = some sketch)).map (·.op.id) = s.sketchOp? sketch := by
  have unique : ∀ a b sketch, s.Owns a sketch → s.Owns b sketch → a = b :=
    fun _ _ _ => sketched.owns_unique
  ext op
  rw [find?_owner_eq_some sketched.tree.ids unique fun _ => perm.mem_iff,
    sketchOp?_eq_some sketched.tree.ids unique]

end

end Studio

/-! ## Runs of a session -/

namespace Session

open Studio (Sketched)

variable {made : List AnyId} {s : Session}

theorem Command.draws_edit (studio : StudioId) (sketch : SketchId) (e : Sketch.Edit) :
    (editSketch studio sketch fun t => e.apply t).Draws :=
  fun _ _ accepted => ⟨[e], (Sketch.step_of_ok accepted).symm⟩

theorem Command.apply_sketched (everywhere : s.Everywhere (Sketched made)) {c : Command}
    (draws : c.Draws) (fresh : ∀ id ∈ c.makes, id ∉ made) (now : Timestamp) :
    (c.apply s now).Everywhere (Sketched (c.makes ++ made)) := by
  have weaker : ∀ t : Studio, t.Sketched made → t.Sketched (c.makes ++ made) := fun t sketched =>
    sketched.mono (List.subset_append_right _ _)
  unfold Command.apply
  cases accepted : c.run? s now with
  | none => exact everywhere.imp weaker
  | some next =>
    refine everywhere.run? weaker (fun t sketched => sketched.touch now) Sketched.new ?_ accepted
    exact fun e performs t sketched => sketched.perform performs draws fresh

def MakesOnce (commands : List Command) : Prop :=
  (commands.flatMap (·.makes)).Nodup

instance (commands : List Command) : Decidable (MakesOnce commands) :=
  inferInstanceAs (Decidable (List.Nodup _))

theorem run_sketched {commands : List (Timestamp × Command)}
    (everywhere : s.Everywhere (Sketched made)) (once : MakesOnce (commands.map (·.2)))
    (fresh : ∀ id ∈ (commands.map (·.2)).flatMap (·.makes), id ∉ made)
    (draws : ∀ c ∈ commands, c.2.Draws) :
    ∃ all, (commands.foldl (fun s c => c.2.apply s c.1) s).Everywhere (Sketched all) := by
  induction commands generalizing s made with
  | nil => exact ⟨made, everywhere⟩
  | cons c rest ih =>
    obtain ⟨drawn, draws⟩ := List.forall_mem_cons.mp draws
    unfold MakesOnce at once
    rw [List.map_cons, List.flatMap_cons] at once fresh
    obtain ⟨_, later, apart⟩ := List.nodup_append.mp once
    have next := Command.apply_sketched everywhere drawn
      (fun id member => fresh id (List.mem_append_left _ member)) c.1
    refine ih next later (fun id member known => ?_) draws
    rcases List.mem_append.mp known with here | before
    · exact apart id here id member rfl
    · exact fresh id (List.mem_append_right _ member) before

theorem sketched_after (first : StudioId) (settings : Settings)
    {commands : List (Timestamp × Command)} (once : MakesOnce (commands.map (·.2)))
    (draws : ∀ c ∈ commands, c.2.Draws) :
    ∃ made, ∀ t ∈ (after first settings commands).document.studios, t.Sketched made := by
  obtain ⟨made, everywhere⟩ := run_sketched (everywhere_start Sketched.new) once
    (fun _ _ => List.not_mem_nil) draws
  exact ⟨made, everywhere.present⟩

/-- In every studio that a session reaches, the sketches are those that features own, each stored
under its own identifier and owned by one feature, which lies on the same plane of the studio. So
the owner of a sketch is found in any order of the features, and the plan has one entry for each
feature before the cutoff that is not suppressed. Commands change sketches by their operations,
and each identifier is made once. -/
theorem sketches_match_owners (first : StudioId) (settings : Settings)
    (commands : List (Timestamp × Command)) (once : MakesOnce (commands.map (·.2)))
    (draws : ∀ c ∈ commands, c.2.Draws) :
    ∀ t ∈ (after first settings commands).document.studios,
      (∀ sketch, t.sketches.contains sketch = true ↔ ∃ op, t.Owns op sketch) ∧
      (∀ a b sketch, t.Owns a sketch → t.Owns b sketch → a = b) ∧
      (∀ id sketch, t.sketches.get? id = some sketch → sketch.id = id) ∧
      (∀ op node id plane, t.nodes.get? op = some node → node.op.feature = .sketch id plane →
        (∃ sketch, t.sketches.get? id = some sketch ∧ sketch.plane = plane) ∧
          t.planes.contains plane = true) ∧
      (∀ sketch (nodes : List Node), nodes.Perm t.nodes.values →
        (nodes.find? (·.op.feature.ownedSketch? = some sketch)).map (·.op.id) =
          t.sketchOp? sketch) ∧
      ∀ params, (t.plan params).map (·.id) = t.visible ∧ t.visible.Nodup := by
  intro t member
  obtain ⟨made, studios⟩ := sketched_after first settings once draws
  have sketched := studios t member
  have wellFormed := sketched.tree.toWellFormed
  refine ⟨fun _ => sketched.contains_iff, fun _ _ _ => sketched.owns_unique, sketched.stored,
    fun _ _ _ _ => sketched.plane_eq, fun sketch nodes perm => sketched.find?_owner perm sketch,
    fun params => ⟨wellFormed.plan_ids (fun op sketch owns => ?_) params,
      wellFormed.visible_nodup⟩⟩
  exact sketched.contains_iff.mpr ⟨op, owns⟩

def undoneDeletion : List (Timestamp × Command) :=
  [(⟨0, 0⟩, .createSketch (Id.ofNat 1) (Id.ofNat 10) (Id.ofNat 2) (some DatumPlane.xz.id)),
    (⟨1, 0⟩, .createSketch (Id.ofNat 1) (Id.ofNat 11) (Id.ofNat 3) (some (Id.ofNat 99))),
    (⟨2, 0⟩, .editSketch (Id.ofNat 1) (Id.ofNat 10) fun t =>
      (Sketch.Edit.addPoint (Id.ofNat 20) 1.0 2.0).apply t),
    (⟨3, 0⟩, .createExtrude (Id.ofNat 1) (Id.ofNat 4) (.sketch (Id.ofNat 10)) .positive "4"),
    (⟨4, 0⟩, .deleteOp (Id.ofNat 1) (Id.ofNat 2)), (⟨5, 0⟩, .undo),
    (⟨6, 0⟩, .deleteOp (Id.ofNat 1) (Id.ofNat 3))]

theorem sketches_match_owners_undoneDeletion :
    let t := (after (Id.ofNat 1) .standard undoneDeletion).document.firstStudio
    MakesOnce (undoneDeletion.map (·.2)) ∧ (∀ c ∈ undoneDeletion, c.2.Draws) ∧
    t.sketches.keys = [Id.ofNat 10] ∧ t.visible = [Id.ofNat 2, Id.ofNat 4] ∧
    (t.plan .empty).map (·.id) = t.visible ∧
    (t.nodes.values.reverse.find? (·.op.feature.ownedSketch? = some (Id.ofNat 10))).map (·.op.id) =
      some (Id.ofNat 2) := by
  intro t
  have once : MakesOnce (undoneDeletion.map (·.2)) := by decide +kernel
  have draws : ∀ c ∈ undoneDeletion, c.2.Draws := by
    simp only [undoneDeletion, List.forall_mem_cons]
    exact ⟨trivial, trivial, Command.draws_edit _ _ _, trivial, trivial, trivial, trivial, nofun⟩
  have reached : t ∈ (after (Id.ofNat 1) .standard undoneDeletion).document.studios :=
    List.head_mem _
  obtain ⟨_, _, _, _, owner, planned⟩ :=
    sketches_match_owners (Id.ofNat 1) .standard undoneDeletion once draws t reached
  refine ⟨once, draws, by decide +kernel, by decide +kernel, (planned .empty).1, ?_⟩
  rw [owner _ _ (List.reverse_perm _)]
  decide +kernel

end Session

end Parametric
