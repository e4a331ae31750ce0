import Parametric.Proofs.Session.Run
/-! The links between the features of a studio, in every document of a session.

A feature names others in its fields, and keeps those it was built from. The two
come apart when features are deleted, or when a field names what was never
there. They agree on the features that are present, because no identifier is
given out twice.
-/

set_option autoImplicit false

namespace Parametric

namespace Feature

/-- The fields that link a feature to others. -/
def links (feature : Feature) : Option SketchId × Option Profile × List OpId :=
  (feature.ownedSketch?, feature.profile?, feature.references)

@[simp] theorem links_mapDimensions (feature : Feature) (change : Nat → Dimension → Dimension) :
    (feature.mapDimensions change).links = feature.links := by
  cases feature with
  | extrude profile | revolve profile => cases profile <;> rfl
  | _ => rfl

def mentions (feature : Feature) : List AnyId :=
  feature.ownedSketch?.toList.map (⟨.sketch, ·⟩) ++
    feature.profile?.toList.map Session.Command.profileId ++ feature.references.map (⟨.op, ·⟩)

theorem mentions_of_owned {feature : Feature} {sketch : SketchId}
    (owned : feature.ownedSketch? = some sketch) : ⟨.sketch, sketch⟩ ∈ feature.mentions := by
  simp [mentions, owned]

theorem mentions_of_profile {feature : Feature} {sketch : SketchId}
    (profile : feature.profile? = some (.sketch sketch)) :
    ⟨.sketch, sketch⟩ ∈ feature.mentions := by
  simp [mentions, profile, Session.Command.profileId]

theorem mentions_of_reference {feature : Feature} {id : OpId} (named : id ∈ feature.references) :
    ⟨.op, id⟩ ∈ feature.mentions := by
  simp [mentions, named]

theorem mentions_subset_of_profile {feature : Feature} {profile : Profile}
    (has : feature.profile? = some profile) :
    feature.mentions ⊆ [Session.Command.profileId profile] := by
  cases feature <;> cases has <;> cases profile <;>
    simp [mentions, ownedSketch?, profile?, references, Session.Command.profileId]

theorem owned_of_profile {feature : Feature} {profile : Profile}
    (has : feature.profile? = some profile) : feature.ownedSketch? = none := by
  cases feature <;> first | rfl | cases has

end Feature

namespace Studio

/-- The features that the fields of a feature name, in the order of the fields and each once: the
owner of the sketch that is its profile, or what it references. -/
def named (s : Studio) (feature : Feature) : List OpId :=
  match feature.profile? with
  | some (.sketch id) => (s.sketchOp? id).toList
  | _ => feature.references.eraseDups

def Owns (s : Studio) (id : OpId) (sketch : SketchId) : Prop :=
  ∃ node, s.nodes.get? id = some node ∧ node.op.feature.ownedSketch? = some sketch

def opIds (mentioned : List AnyId) : List OpId :=
  mentioned.filterMap fun
    | ⟨.op, id⟩ => some id
    | _ => none

theorem mem_opIds {mentioned : List AnyId} {id : OpId} :
    id ∈ opIds mentioned ↔ ⟨.op, id⟩ ∈ mentioned := by
  unfold opIds
  rw [List.mem_filterMap]
  constructor
  · rintro ⟨⟨kind, other⟩, member, same⟩
    cases kind <;> cases same
    exact member
  · intro member
    exact ⟨⟨.op, id⟩, member, rfl⟩

/-- The links of a studio are consistent, and known among the identifiers mentioned so far. -/
structure Linked (mentioned : List AnyId) (s : Studio) : Prop where
  tree : s.Kept (opIds mentioned)
  known : ∀ id node, s.nodes.get? id = some node → node.op.feature.mentions ⊆ mentioned
  owner_unique : ∀ a b sketch, s.Owns a sketch → s.Owns b sketch → a = b
  owned_present : ∀ id sketch, s.Owns id sketch → s.sketches.contains sketch = true
  /-- What a feature was built from is what its fields name, as far as it is present. -/
  recorded : ∀ id node, s.nodes.get? id = some node →
    node.dependencies.filter s.contains = (s.named node.op.feature).filter s.contains

section

variable {mentioned : List AnyId} {s : Studio}

/-- In whatever order the features are listed, the first one that owns a sketch is its owner. -/
theorem find?_owner_eq_some (ids : ∀ id node, s.nodes.get? id = some node → node.op.id = id)
    (unique : ∀ a b sketch, s.Owns a sketch → s.Owns b sketch → a = b) {nodes : List Node}
    (listed : ∀ node, node ∈ nodes ↔ node ∈ s.nodes.values) {id : OpId} {sketch : SketchId} :
    (nodes.find? (·.op.feature.ownedSketch? = some sketch)).map (·.op.id) = some id ↔
      s.Owns id sketch := by
  have sound : ∀ id, (nodes.find? (·.op.feature.ownedSketch? = some sketch)).map (·.op.id) =
      some id → s.Owns id sketch := by
    intro id owner
    obtain ⟨node, found, rfl⟩ := Option.map_eq_some_iff.mp owner
    obtain ⟨key, lookup⟩ :=
      SortedMap.mem_values.mp ((listed node).mp (List.mem_of_find?_eq_some found))
    rw [ids key node lookup]
    exact ⟨node, lookup, by simpa using List.find?_some found⟩
  refine ⟨sound id, fun owns => ?_⟩
  obtain ⟨node, lookup, owned⟩ := owns
  -- Some feature is found, and it is the owner as no other owns the sketch.
  cases found : (nodes.find? (·.op.feature.ownedSketch? = some sketch)).map (·.op.id) with
  | none =>
    have none_owns := List.find?_eq_none.mp (Option.map_eq_none_iff.mp found) node
      ((listed node).mpr (SortedMap.mem_values.mpr ⟨id, lookup⟩))
    simp [owned] at none_owns
  | some other => rw [unique other id sketch (sound other found) ⟨node, lookup, owned⟩]

theorem sketchOp?_eq_some (ids : ∀ id node, s.nodes.get? id = some node → node.op.id = id)
    (unique : ∀ a b sketch, s.Owns a sketch → s.Owns b sketch → a = b) {id : OpId}
    {sketch : SketchId} : s.sketchOp? sketch = some id ↔ s.Owns id sketch :=
  find?_owner_eq_some ids unique fun _ => Iff.rfl

theorem Linked.sketchOp?_eq_some (linked : s.Linked mentioned) {id : OpId} {sketch : SketchId} :
    s.sketchOp? sketch = some id ↔ s.Owns id sketch :=
  Studio.sketchOp?_eq_some linked.tree.ids linked.owner_unique

theorem Linked.mono {more : List AnyId} (linked : s.Linked mentioned)
    (included : mentioned ⊆ more) : s.Linked more where
  tree := linked.tree.mono fun _ member => mem_opIds.mpr (included (mem_opIds.mp member))
  known id node found := List.Subset.trans (linked.known id node found) included
  owner_unique := linked.owner_unique
  owned_present := linked.owned_present
  recorded := linked.recorded

theorem new_linked (mentioned : List AnyId) (fresh : StudioId) (name : String) :
    (new fresh name).Linked mentioned where
  tree := (new_kept fresh name).mono (List.nil_subset _)
  known := by intro id node found; cases found
  owner_unique := by rintro a b sketch ⟨_, found, _⟩; cases found
  owned_present := by rintro id sketch ⟨_, found, _⟩; cases found
  recorded := by intro id node found; cases found

theorem named_congr {t : Studio} {f g : Feature} (links : f.links = g.links)
    (owners : ∀ sketch, f.profile? = some (.sketch sketch) →
      t.sketchOp? sketch = s.sketchOp? sketch) :
    t.named f = s.named g := by
  have profile : f.profile? = g.profile? := congrArg (·.2.1) links
  have references : f.references = g.references := congrArg (·.2.2) links
  unfold named
  rw [← profile, ← references]
  split
  · next sketch is => rw [owners sketch is]
  · rfl

/-! ## Edits -/

/-- What the links need of a node. -/
def outline (node : Node) : (OpId × List OpId) × (Option SketchId × Option Profile × List OpId) :=
  (skeleton node, node.op.feature.links)

theorem Linked.of_outline {t : Studio} (linked : s.Linked mentioned)
    (nodes : ∀ id, (t.nodes.get? id).map outline = (s.nodes.get? id).map outline)
    (order : t.order = s.order)
    (cutoff : ∀ position, t.cutoff = some position → position ≤ s.order.length)
    (planes : ∀ id, s.planes.contains id = true → t.planes.contains id = true)
    (sketches : ∀ id, s.sketches.contains id = true → t.sketches.contains id = true) :
    t.Linked mentioned := by
  have tree : t.Kept (opIds mentioned) := by
    refine linked.tree.of_skeleton (fun id => ?_) order cutoff planes
    have same := congrArg (Option.map (·.1)) (nodes id)
    rw [Option.map_map, Option.map_map] at same
    exact same
  have present : t.contains = s.contains := by
    funext id
    have same := congrArg Option.isSome (nodes id)
    simpa [contains, SortedMap.contains] using same
  have counterpart : ∀ id node, t.nodes.get? id = some node →
      ∃ old, s.nodes.get? id = some old ∧ old.dependencies = node.dependencies ∧
        old.op.feature.links = node.op.feature.links := by
    intro id node found
    have same := nodes id
    rw [found] at same
    obtain ⟨old, foundOld, equal⟩ := Option.map_eq_some_iff.mp same.symm
    exact ⟨old, foundOld, congrArg (·.1.2) equal, congrArg (·.2) equal⟩
  have owns : ∀ id sketch, t.Owns id sketch → s.Owns id sketch := by
    rintro id sketch ⟨node, found, owned⟩
    obtain ⟨old, foundOld, _, links⟩ := counterpart id node found
    exact ⟨old, foundOld, (congrArg (·.1) links).trans owned⟩
  have owns' : ∀ id sketch, s.Owns id sketch → t.Owns id sketch := by
    rintro id sketch ⟨node, found, owned⟩
    have same := nodes id
    rw [found] at same
    obtain ⟨new, foundNew, equal⟩ := Option.map_eq_some_iff.mp same
    exact ⟨new, foundNew, (congrArg (·.2.1) equal).trans owned⟩
  have unique : ∀ a b sketch, t.Owns a sketch → t.Owns b sketch → a = b :=
    fun a b sketch one other =>
      linked.owner_unique a b sketch (owns a sketch one) (owns b sketch other)
  have owners : ∀ sketch, t.sketchOp? sketch = s.sketchOp? sketch := by
    intro sketch
    ext id
    rw [Studio.sketchOp?_eq_some tree.ids unique, linked.sketchOp?_eq_some]
    exact ⟨owns id sketch, owns' id sketch⟩
  exact {
    tree
    known := by
      intro id node found
      obtain ⟨old, foundOld, _, links⟩ := counterpart id node found
      have known := linked.known id old foundOld
      simp only [Feature.links, Prod.mk.injEq] at links
      simpa only [Feature.mentions, links] using known
    owner_unique := unique
    owned_present := fun id sketch owned =>
      sketches sketch (linked.owned_present id sketch (owns id sketch owned))
    recorded := by
      intro id node found
      obtain ⟨old, foundOld, dependencies, links⟩ := counterpart id node found
      rw [present, ← dependencies, linked.recorded id old foundOld,
        named_congr links.symm fun sketch _ => owners sketch] }

theorem Linked.named_known (linked : s.Linked mentioned) {feature : Feature} {id : OpId}
    (member : id ∈ s.named feature) : ⟨.op, id⟩ ∈ feature.mentions ++ mentioned := by
  unfold named at member
  split at member
  · obtain ⟨node, found, _⟩ := linked.sketchOp?_eq_some.mp (Option.mem_toList.mp member)
    have inOrder := linked.tree.mem_order.mpr (SortedMap.contains_of_get? found)
    exact List.mem_append_right _ (mem_opIds.mp (linked.tree.order_made id inOrder))
  · exact List.mem_append_left _ (Feature.mentions_of_reference (List.mem_eraseDups.mp member))

theorem named_nodup (s : Studio) (feature : Feature) : (s.named feature).Nodup := by
  unfold named
  split
  · next sketch _ => cases s.sketchOp? sketch <;> simp
  · exact nodup_eraseDups _

section

variable {fresh : OpId} {name : String} {feature : Feature} {dependencies : List OpId}

theorem get?_append (id : OpId) : (s.append (.new fresh name feature) dependencies).nodes.get? id =
    if id = fresh then some ⟨.new fresh name feature, dependencies⟩ else s.nodes.get? id :=
  SortedMap.get?_insert _ _ _ _

theorem filter_append {ids : List OpId} (absent : fresh ∉ ids) :
    ids.filter (s.append (.new fresh name feature) dependencies).contains =
      ids.filter s.contains := by
  refine List.filter_congr fun id member => ?_
  have apart : id ≠ fresh := fun same => absent (same ▸ member)
  exact congrArg Option.isSome (s.nodes.get?_insert_of_ne apart _)

theorem owns_append (absent : s.nodes.get? fresh = none) {id : OpId} {sketch : SketchId} :
    (s.append (.new fresh name feature) dependencies).Owns id sketch ↔
      (id = fresh ∧ feature.ownedSketch? = some sketch) ∨ s.Owns id sketch := by
  unfold Owns
  rw [get?_append]
  by_cases same : id = fresh
  · subst same
    simp [absent, Op.new]
  · simp [same]

theorem forall_append {P : OpId → Node → Prop}
    (new : P fresh ⟨.new fresh name feature, dependencies⟩)
    (old : ∀ id node, s.nodes.get? id = some node → P id node) :
    ∀ id node, (s.append (.new fresh name feature) dependencies).nodes.get? id = some node →
      P id node := by
  intro id node found
  rw [get?_append] at found
  split at found
  · next same =>
    cases found
    exact same ▸ new
  · exact old id node found

/-- Appending a fresh feature that was built from what its fields name, as far as it is present,
keeps the links. -/
theorem Linked.append {more : List AnyId} (linked : s.Linked mentioned)
    (included : mentioned ⊆ more) (unused : ⟨.op, fresh⟩ ∉ feature.mentions ++ mentioned)
    (made : ⟨.op, fresh⟩ ∈ more) (mentions : feature.mentions ⊆ more)
    (owned : ∀ sketch, feature.ownedSketch? = some sketch →
      ⟨.sketch, sketch⟩ ∉ mentioned ∧ s.sketches.contains sketch = true)
    (built : dependencies = (s.named feature).filter s.contains) :
    (s.append (.new fresh name feature) dependencies).Linked more := by
  let t := s.append (.new fresh name feature) dependencies
  have unknown : ⟨.op, fresh⟩ ∉ mentioned := fun member => unused (List.mem_append_right _ member)
  have tree : t.Kept (opIds more) := by
    have appended : t.Kept (fresh :: opIds mentioned) := by
      refine linked.tree.append (fun member => unknown (mem_opIds.mp member)) ?_ ?_
      · exact built ▸ (named_nodup s feature).filter _
      · intro d member
        exact (List.mem_filter.mp (built ▸ member)).2
    refine appended.mono fun id member => mem_opIds.mpr ?_
    rcases List.mem_cons.mp member with rfl | old
    · exact made
    · exact included (mem_opIds.mp old)
  have absent : s.nodes.get? fresh = none :=
    linked.tree.get?_eq_none fun member => unknown (mem_opIds.mp member)
  -- The new feature owns no sketch that was mentioned before it.
  have apart : ∀ sketch, ⟨.sketch, sketch⟩ ∈ mentioned → feature.ownedSketch? ≠ some sketch :=
    fun sketch member has => (owned sketch has).1 member
  have ownedBefore : ∀ id sketch, s.Owns id sketch → feature.ownedSketch? ≠ some sketch := by
    rintro id sketch ⟨node, found, has⟩
    exact apart sketch (linked.known id node found (Feature.mentions_of_owned has))
  have unique : ∀ a b sketch, t.Owns a sketch → t.Owns b sketch → a = b := by
    intro a b sketch one other
    rcases (owns_append absent).mp one with ⟨rfl, has⟩ | before <;>
      rcases (owns_append absent).mp other with ⟨rfl, has'⟩ | before'
    · rfl
    · exact absurd has (ownedBefore b sketch before')
    · exact absurd has' (ownedBefore a sketch before)
    · exact linked.owner_unique a b sketch before before'
  have owners : ∀ sketch, feature.ownedSketch? ≠ some sketch →
      t.sketchOp? sketch = s.sketchOp? sketch := by
    intro sketch foreign
    ext id
    rw [Studio.sketchOp?_eq_some tree.ids unique, linked.sketchOp?_eq_some, owns_append absent]
    exact or_iff_right fun new => foreign new.2
  exact {
    tree
    known := forall_append mentions fun id node found =>
      List.Subset.trans (linked.known id node found) included
    owner_unique := unique
    owned_present := by
      intro id sketch owns
      rcases (owns_append absent).mp owns with ⟨rfl, has⟩ | before
      · exact (owned sketch has).2
      · exact linked.owned_present id sketch before
    recorded := by
      refine forall_append ?_ fun id node found => ?_
      · have same : t.named feature = s.named feature :=
          named_congr rfl fun sketch is => owners sketch (by simp [Feature.owned_of_profile is])
        have foreign : fresh ∉ s.named feature := fun member => unused (linked.named_known member)
        have fromNamed : fresh ∉ dependencies := fun member =>
          foreign (List.mem_filter.mp (built ▸ member)).1
        change dependencies.filter t.contains = (t.named feature).filter t.contains
        rw [same, filter_append fromNamed, filter_append foreign, built, List.filter_filter]
        simp
      · have known := linked.known id node found
        have same : t.named node.op.feature = s.named node.op.feature :=
          named_congr rfl fun sketch is =>
            owners sketch (apart sketch (known (Feature.mentions_of_profile is)))
        have foreign : fresh ∉ s.named node.op.feature := fun member =>
          unknown (List.append_subset.mpr ⟨known, List.Subset.refl _⟩ (linked.named_known member))
        have notBuilt : fresh ∉ node.dependencies := fun member =>
          unknown (mem_opIds.mp (linked.tree.dependencies_made id node found fresh member))
        rw [same, filter_append notBuilt, filter_append foreign]
        exact linked.recorded id node found }

end

theorem Linked.delete {t : Studio} (linked : s.Linked mentioned) {id : OpId} {op : Op}
    (deleted : s.delete? id = some (op, t)) : t.Linked mentioned := by
  have tree : t.Kept (opIds mentioned) := linked.tree.delete deleted
  obtain ⟨removed, lookup, nodes, _, sketches⟩ := delete?_eq_some deleted
  have found : ∀ {other : OpId} {node : Node}, t.nodes.get? other = some node →
      other ≠ id ∧ s.nodes.get? other = some node := by
    intro other node present
    rw [nodes, SortedMap.get?_erase] at present
    split at present
    · cases present
    · next different => exact ⟨different, present⟩
  have owns : ∀ {other : OpId} {sketch : SketchId}, t.Owns other sketch ↔
      other ≠ id ∧ s.Owns other sketch := by
    intro other sketch
    unfold Owns
    rw [nodes, SortedMap.get?_erase]
    by_cases same : other = id <;> simp [same]
  have unique : ∀ a b sketch, t.Owns a sketch → t.Owns b sketch → a = b :=
    fun a b sketch one other =>
      linked.owner_unique a b sketch (owns.mp one).2 (owns.mp other).2
  have present : ∀ ids : List OpId,
      ids.filter t.contains = (ids.filter s.contains).filter (· ≠ id) := by
    intro ids
    rw [List.filter_filter]
    refine List.filter_congr fun other _ => ?_
    unfold contains SortedMap.contains
    rw [nodes, SortedMap.get?_erase]
    by_cases same : other = id <;> simp [same]
  have named : ∀ feature, (t.named feature).filter (· ≠ id) =
      (s.named feature).filter (· ≠ id) := by
    intro feature
    have owner : ∀ sketch, t.sketchOp? sketch = (s.sketchOp? sketch).filter (· ≠ id) := by
      intro sketch
      ext other
      rw [Studio.sketchOp?_eq_some tree.ids unique, owns, Option.filter_eq_some_iff,
        linked.sketchOp?_eq_some, and_comm]
      simp
    unfold Studio.named
    split
    · next sketch _ =>
      rw [owner, Option.toList_filter, List.filter_filter]
      simp
    · rfl
  exact {
    tree
    known := fun other node present => linked.known other node (found present).2
    owner_unique := unique
    owned_present := by
      intro other sketch has
      obtain ⟨different, before⟩ := owns.mp has
      have there := linked.owned_present other sketch before
      rw [sketches]
      split
      · next own is =>
        refine SortedMap.contains_erase.mpr ⟨?_, there⟩
        rintro rfl
        exact different (linked.owner_unique other id _ before ⟨removed, lookup, is⟩)
      · exact there
    recorded := by
      intro other node here
      have old := linked.recorded other node (found here).2
      rw [present, old, present, List.filter_comm, ← named, List.filter_comm] }

theorem Linked.update (linked : s.Linked mentioned) {id : OpId} (change : Op → Op) {t : Studio}
    (same : ∀ op, (change op).feature.links = op.feature.links)
    (updated : s.update? id change = some t) : t.Linked mentioned := by
  obtain ⟨node, lookup, keeps, rfl⟩ := update?_eq_some updated
  refine linked.of_outline ?_ rfl linked.tree.cutoff (fun _ there => there) fun _ there => there
  intro other
  rw [SortedMap.get?_insert]
  split
  · next asked =>
    subst asked
    rw [lookup]
    simp [outline, skeleton, keeps, linked.tree.ids other node lookup, same]
  · rfl

theorem Linked.setSketches (linked : s.Linked mentioned) {sketches : SortedMap SketchId Sketch}
    (kept : ∀ id, s.sketches.contains id = true → sketches.contains id = true) :
    ({ s with sketches } : Studio).Linked mentioned :=
  linked.of_outline (fun _ => rfl) rfl linked.tree.cutoff (fun _ there => there) kept

theorem Linked.setCutoff (linked : s.Linked mentioned) (position : Option Nat) :
    (s.setCutoff position).Linked mentioned :=
  linked.of_outline (fun _ => rfl) rfl (linked.tree.setCutoff position).cutoff
    (fun _ there => there) fun _ there => there

theorem Linked.rollbackTo (linked : s.Linked mentioned) {id : OpId} {t : Studio}
    (rolled : s.rollbackTo? id = some t) : t.Linked mentioned := by
  have cutoff := (linked.tree.rollbackTo rolled).cutoff
  obtain ⟨index, place, rfl⟩ := Option.map_eq_some_iff.mp rolled
  exact linked.of_outline (fun _ => rfl) rfl cutoff (fun _ there => there) fun _ there => there

theorem Linked.renameParameter (linked : s.Linked mentioned) (old fresh : String)
    (takes : String → Bool) : (s.renameParameter old fresh takes).Linked mentioned := by
  refine linked.of_outline ?_ rfl linked.tree.cutoff (fun _ there => there) fun _ there => there
  intro id
  rw [Studio.renameParameter, SortedMap.get?_map, Option.map_map]
  congr 1
  funext node
  simp [outline, skeleton, Op.mapDimensions]

theorem Linked.touch (linked : s.Linked mentioned) (now : Timestamp) :
    (s.touch now).Linked mentioned :=
  linked.of_outline (fun _ => rfl) rfl linked.tree.cutoff (fun _ there => there)
    fun _ there => there

theorem eraseDups_filter (keep : OpId → Bool) (ids : List OpId) :
    (ids.filter keep).eraseDups = ids.eraseDups.filter keep := by
  generalize size : ids.length = n
  induction n using Nat.strongRecOn generalizing ids with
  | ind n ih =>
    cases ids with
    | nil => rfl
    | cons id rest =>
      have shorter : (rest.filter fun b => !b == id).length < n := by
        have := List.length_filter_le (fun b => !b == id) rest
        rw [List.length_cons] at size
        omega
      rw [List.eraseDups_cons, List.filter_cons, List.filter_cons, ← ih _ shorter _ rfl,
        List.filter_comm]
      cases kept : keep id with
      | true => simp [List.eraseDups_cons]
      | false =>
        -- What is kept is no copy of an element that is not.
        have same : (rest.filter keep).filter (fun b => !b == id) = rest.filter keep := by
          refine List.filter_eq_self.mpr fun b member => ?_
          have apart : b ≠ id := by
            rintro rfl
            simp [kept] at member
          simpa using apart
        simp [same]

theorem existing_named (feature : Feature) (noProfile : feature.profile? = none) :
    s.existing feature.references = (s.named feature).filter s.contains := by
  unfold existing named
  rw [noProfile, eraseDups_filter]

theorem Linked.profileDependencies_named (linked : s.Linked mentioned) {feature : Feature}
    {profile : Profile} (has : feature.profile? = some profile) :
    s.profileDependencies profile = (s.named feature).filter s.contains := by
  unfold named
  rw [has]
  cases profile with
  | sketch sketch =>
    refine (List.filter_eq_self.mpr fun id member => ?_).symm
    exact sketchOp?_present linked.tree.toWellFormed (Option.mem_toList.mp member)
  | face face =>
    have references : feature.references = [face.op] := by
      cases feature <;> cases has <;> rfl
    rw [references, ← eraseDups_filter]
    rfl

end

/-! ## Runs of a session -/

open Session (Command)

section

variable {mentioned : List AnyId} {s : Studio} {c : Command}

theorem Linked.create (linked : s.Linked mentioned)
    (fresh : ∀ id ∈ c.makes, id ∉ c.names ++ mentioned) {new : OpId} {name : String}
    {feature : Feature} {dependencies : List OpId} (made : ⟨.op, new⟩ ∈ c.makes)
    (mentions : feature.mentions ⊆ c.names) (noSketch : feature.ownedSketch? = none)
    (built : dependencies = (s.named feature).filter s.contains) :
    (s.append (.new new name feature) dependencies).Linked (c.makes ++ c.names ++ mentioned) := by
  have later : feature.mentions ⊆ c.names ++ mentioned :=
    List.Subset.trans mentions (List.subset_append_left _ _)
  have unused : ⟨.op, new⟩ ∉ feature.mentions ++ mentioned := fun member =>
    fresh _ made (List.append_subset.mpr ⟨later, List.subset_append_right _ _⟩ member)
  refine linked.append (List.subset_append_right _ _) unused ?_ ?_ ?_ built
  · exact List.mem_append_left _ (List.mem_append_left _ made)
  · exact fun id member => List.mem_append_left _ (List.mem_append_right _ (mentions member))
  · intro sketch owned
    rw [noSketch] at owned
    cases owned

theorem Linked.edit (linked : s.Linked mentioned)
    (fresh : ∀ id ∈ c.makes, id ∉ c.names ++ mentioned) {e : Edit} (performs : c.Performs e) :
    (e.apply s).Linked (c.makes ++ c.names ++ mentioned) := by
  have later := linked.mono (List.subset_append_right (c.makes ++ c.names) mentioned)
  have refused : ∀ {next : Option Studio},
      (∀ t, next = some t → t.Linked (c.makes ++ c.names ++ mentioned)) →
      (next.getD s).Linked (c.makes ++ c.names ++ mentioned) := by
    intro next accepted
    cases next with
    | none => exact later
    | some t => exact accepted t rfl
  cases performs with
  | createSketch studio freshSketch new name given plane =>
    have unused : ⟨.sketch, freshSketch⟩ ∉ mentioned := fun member =>
      fresh ⟨.sketch, freshSketch⟩ (by simp [Command.makes]) (List.mem_append_right _ member)
    have unused' : ⟨.op, new⟩ ∉ mentioned := fun member =>
      fresh ⟨.op, new⟩ (by simp [Command.makes]) (List.mem_append_right _ member)
    refine (linked.setSketches fun id there => SortedMap.contains_insert.mpr (.inr there)).append
      (List.subset_append_right _ _) ?_ ?_ ?_ ?_ ?_
    · exact List.not_mem_cons_of_ne_of_not_mem (by simp) unused'
    · simp [Command.makes]
    · exact List.cons_subset.mpr ⟨by simp [Command.makes], List.nil_subset _⟩
    · intro sketch owned
      cases owned
      exact ⟨unused, SortedMap.contains_insert.mpr (.inl rfl)⟩
    · rfl
  | createExtrude studio new name profile direction input depth =>
    exact linked.create fresh List.mem_cons_self
      (List.Subset.trans (Feature.mentions_subset_of_profile rfl) (List.subset_cons_self _ _)) rfl
      (linked.profileDependencies_named rfl)
  | createRevolve studio new name profile choice input angle =>
    exact linked.create fresh List.mem_cons_self
      (List.Subset.trans (Feature.mentions_subset_of_profile rfl) (List.subset_cons_self _ _)) rfl
      (linked.profileDependencies_named rfl)
  | createFillet studio new target name edges input radius =>
    exact linked.create fresh List.mem_cons_self (List.subset_cons_self _ _) rfl
      (existing_named (.fillet target edges radius) rfl)
  | createBoolean studio new name operation target tool =>
    exact linked.create fresh List.mem_cons_self (List.subset_cons_self _ _) rfl
      (existing_named (.boolean operation target tool) rfl)
  | deleteOp studio op =>
    refine refused fun t deleted => ?_
    obtain ⟨⟨removed, _⟩, outcome, rfl⟩ := Option.map_eq_some_iff.mp deleted
    exact later.delete outcome
  | setSuppressed studio op suppressed =>
    exact refused fun t updated =>
      later.update (fun o => { o with suppressed }) (fun _ => rfl) updated
  | setDimension studio op index input change =>
    exact refused fun t updated => later.update _ (fun _ => Feature.links_mapDimensions _ _) updated
  | renameOp studio op name =>
    exact refused fun t updated =>
      later.update (fun o => { o with name }) (fun _ => rfl) updated
  | setCutoff studio position => exact later.setCutoff position
  | rollbackTo studio op => exact refused fun t rolled => later.rollbackTo rolled
  | editSketch studio sketch edit =>
    rw [Edit.apply, Studio.editSketch]
    split
    · exact later
    · exact later.setSketches fun id there => SortedMap.contains_insert.mpr (.inr there)
  | renameParameter id name old takes => exact later.renameParameter old name takes

end

theorem linked_keeps : Session.Keeps Linked where
  mono included linked := linked.mono included
  new := new_linked
  touch _ _ now linked := linked.touch now
  edit _ _ _ _ performs fresh linked := linked.edit fresh performs

/-- Every studio of a document that a session reaches has consistent links. -/
theorem linked_after {first : StudioId} {settings : Settings}
    {commands : List (Timestamp × Command)}
    (fresh : Session.FreshFrom [⟨.studio, first⟩] (commands.map (·.2))) :
    ∃ mentioned, ∀ s ∈ (Session.after first settings commands).document.studios,
      s.Linked mentioned := by
  obtain ⟨mentioned, everywhere⟩ := linked_keeps.after first settings commands fresh
  exact ⟨mentioned, everywhere.present⟩

end Studio

end Parametric
