import Parametric.Proofs.Outcome
import Parametric.Proofs.Sketch.Edit
/-! What a sketch refers to is there.

Primitives are defined by points of their sketch, also after any edits: new ones are checked, no
edit makes another kind of a primitive, and a removal takes along what it would leave undefined.
-/

set_option autoImplicit false

namespace Parametric

/-- The reason for a refusal is true of the sketch. -/
def SketchError.Holds (s : Sketch) : SketchError → Prop
  | missingPrimitive id => s.get? id = none
  | notAPoint id => ∃ p, s.get? id = some p ∧ p.isPoint = false
  | invalidRadius radius => ¬ (radius.isFinite = true ∧ 0.0 < radius)

namespace Sketch

variable {s next : Sketch} {id other : PrimitiveId} {p : Primitive} {e : Edit}
  {made : List PrimitiveId}

/-- A primitive that a sketch can hold: points of the sketch define it, and the radius of a
circle is finite and positive. -/
structure Fits (s : Sketch) (p : Primitive) : Prop where
  points : ∀ r ∈ p.references, s.HasPoint r
  radius : ∀ center radius, p.shape = .circle center radius →
    radius.isFinite = true ∧ 0.0 < radius

theorem Fits.mono (fits : s.Fits p) (points : ∀ r ∈ p.references, s.HasPoint r → next.HasPoint r) :
    next.Fits p where
  points r mentioned := points r mentioned (fits.points r mentioned)
  radius := fits.radius

theorem fits_point (x y : Float) (construction : Bool) : s.Fits ⟨.point x y, construction⟩ where
  points _ mentioned := nomatch mentioned
  radius _ _ circle := nomatch circle

/-! ## What an accepted edit does -/

/-- The sketches that an edit leads to when it is accepted. -/
inductive Edit.Leads (s : Sketch) : Edit → Sketch → Prop where
  | makes {e : Edit} {fresh : PrimitiveId} {shape : Shape} (made : e.makes? = some (fresh, shape))
      (fits : s.Fits ⟨shape, false⟩) : Leads s e (s.place fresh shape)
  | moves {id : PrimitiveId} (x y : Float) (point : s.HasPoint id) :
      Leads s (.movePoint id x y) (s.moveTo id x y)
  | marks {id : PrimitiveId} (construction : Bool) (present : (s.get? id).isSome) :
      Leads s (.setConstruction id construction) (s.mark id construction)
  | removes (id : PrimitiveId) {removed : List PrimitiveId} {next : Sketch}
      (removes : s.Removes removed next)
      (whole : (∀ other, ¬ s.Lacks other) → ∀ other, ¬ next.Lacks other) :
      Leads s (.remove id) next
  | solves (positions : List (PrimitiveId × Vec2)) :
      Leads s (.setSolved positions) (s.setSolved positions)
  | clears : Leads s .clearSolved s.clearSolved

theorem leads_remove (id : PrimitiveId) : (Edit.remove id).Leads s (s.remove id).2 := by
  refine .removes id (s.removes_removePending [id]) fun whole => ?_
  exact not_lacks_removePending fun other lacks => absurd lacks (whole other)

theorem leads_of_ok (accepted : e.apply s = .ok next) : e.Leads s next := by
  cases e with
  | addPoint fresh x y =>
    cases accepted
    exact .makes rfl (fits_point x y false)
  | addLine fresh start finish =>
    replace accepted := (s.addLine_eq fresh start finish).symm.trans accepted
    obtain ⟨_, first, accepted⟩ := ok_of_bind accepted
    obtain ⟨_, last, accepted⟩ := ok_of_bind accepted
    cases accepted
    refine .makes rfl ⟨?_, nofun⟩
    simpa [Primitive.references] using ⟨requirePoint_eq_ok.mp first, requirePoint_eq_ok.mp last⟩
  | addCircle fresh center radius =>
    replace accepted := (s.addCircle_eq fresh center radius).symm.trans accepted
    obtain ⟨_, middle, accepted⟩ := ok_of_bind accepted
    split at accepted
    · next positive =>
      cases accepted
      refine .makes rfl ⟨?_, ?_⟩
      · simpa [Primitive.references] using requirePoint_eq_ok.mp middle
      · rintro _ _ ⟨⟩
        simpa using positive
    · cases accepted
  | addArc fresh center start finish clockwise =>
    replace accepted := (s.addArc_eq fresh center start finish clockwise).symm.trans accepted
    obtain ⟨_, middle, accepted⟩ := ok_of_bind accepted
    obtain ⟨_, first, accepted⟩ := ok_of_bind accepted
    obtain ⟨_, last, accepted⟩ := ok_of_bind accepted
    cases accepted
    refine .makes rfl ⟨?_, nofun⟩
    simpa [Primitive.references] using ⟨requirePoint_eq_ok.mp middle,
      requirePoint_eq_ok.mp first, requirePoint_eq_ok.mp last⟩
  | movePoint id x y =>
    replace accepted := (s.movePoint_eq id x y).symm.trans accepted
    obtain ⟨_, point, accepted⟩ := ok_of_bind accepted
    cases accepted
    exact .moves x y (requirePoint_eq_ok.mp point)
  | setConstruction id construction =>
    replace accepted := (s.setConstruction_eq id construction).symm.trans accepted
    split at accepted
    · cases accepted
    · next found =>
      cases accepted
      exact .marks construction (found ▸ rfl)
  | remove id =>
    cases accepted
    exact leads_remove id
  | setSolved positions =>
    cases accepted
    exact .solves positions
  | clearSolved =>
    cases accepted
    exact .clears

theorem Edit.Leads.kept (leads : e.Leads s next) :
    (next.id, next.name, next.plane) = (s.id, s.name, s.plane) := by
  cases leads with
  | removes _ removes whole => exact removes.kept
  | makes | moves | marks | solves | clears => rfl

theorem after_kept (s : Sketch) (edits : List Edit) :
    ((s.after edits).id, (s.after edits).name, (s.after edits).plane) =
      (s.id, s.name, s.plane) := by
  induction edits generalizing s with
  | nil => rfl
  | cons e rest ih =>
    rw [after_cons, ih]
    cases answer : e.apply s with
    | ok next =>
      rw [step_of_ok answer]
      exact (leads_of_ok answer).kept
    | error reason => rw [step_of_error answer]

theorem holds_of_requirePoint {reason : SketchError} (refused : s.requirePoint id = .error reason) :
    reason.Holds s := by
  unfold requirePoint at refused
  split at refused
  · next missing =>
    cases refused
    exact missing
  · next p found =>
    split at refused
    · cases refused
    · next other =>
      cases refused
      exact ⟨p, found, by simpa using other⟩

theorem holds_of_bind {f : Unit → Except SketchError Sketch} {reason : SketchError}
    (refused : (s.requirePoint id >>= f) = .error reason)
    (rest : f () = .error reason → reason.Holds s) : reason.Holds s := by
  rcases error_of_bind refused with here | ⟨_, _, later⟩
  · exact holds_of_requirePoint here
  · exact rest later

theorem holds_of_error {reason : SketchError} (refused : e.apply s = .error reason) :
    reason.Holds s := by
  cases e with
  | addLine fresh start finish =>
    replace refused := (s.addLine_eq fresh start finish).symm.trans refused
    refine holds_of_bind refused fun refused => holds_of_bind refused fun accepted => ?_
    cases accepted
  | addCircle fresh center radius =>
    replace refused := (s.addCircle_eq fresh center radius).symm.trans refused
    refine holds_of_bind refused fun refused => ?_
    split at refused
    · cases refused
    · next unfit =>
      cases refused
      simpa [SketchError.Holds] using unfit
  | addArc fresh center start finish clockwise =>
    replace refused := (s.addArc_eq fresh center start finish clockwise).symm.trans refused
    refine holds_of_bind refused fun refused => holds_of_bind refused fun refused =>
      holds_of_bind refused fun accepted => ?_
    cases accepted
  | movePoint id x y =>
    replace refused := (s.movePoint_eq id x y).symm.trans refused
    refine holds_of_bind refused fun accepted => ?_
    cases accepted
  | setConstruction id construction =>
    replace refused := (s.setConstruction_eq id construction).symm.trans refused
    split at refused
    · next missing =>
      cases refused
      exact missing
    · cases refused
  | addPoint | remove | setSolved | clearSolved => cases refused

/-! ## What edits keep -/

/-- Primitives that fit the sketch and are among those made so far, and solved positions of
primitives only. -/
structure Intact (made : List PrimitiveId) (s : Sketch) : Prop where
  fits : ∀ id p, s.get? id = some p → s.Fits p
  solved : ∀ id, (s.solvedPosition? id).isSome → (s.get? id).isSome
  made : ∀ id, (s.get? id).isSome → id ∈ made

theorem new_intact (first : SketchId) (name : String) (plane : PlaneId) :
    (new first name plane).Intact [] where
  fits _ _ found := nomatch found
  solved _ found := nomatch found
  made _ found := nomatch found

namespace Intact

theorem mono {more : List PrimitiveId} (intact : s.Intact made) (included : made ⊆ more) :
    s.Intact more :=
  { intact with made := fun id found => included (intact.made id found) }

theorem place (intact : s.Intact made) {fresh : PrimitiveId} {shape : Shape}
    (unused : fresh ∉ made) (fits : s.Fits ⟨shape, false⟩) :
    (s.place fresh shape).Intact (fresh :: made) := by
  have points : ∀ r, s.HasPoint r → (s.place fresh shape).HasPoint r := by
    rintro r ⟨p, found, point⟩
    refine ⟨p, ?_, point⟩
    rw [get?_place, if_neg]
    · exact found
    · rintro rfl
      exact unused (intact.made r (found ▸ rfl))
  constructor
  case fits =>
    intro id p found
    rw [get?_place] at found
    split at found
    · cases found
      exact fits.mono fun r _ => points r
    · exact (intact.fits id p found).mono fun r _ => points r
  case solved =>
    intro id found
    rw [get?_place]
    split
    · rfl
    · exact intact.solved id found
  case made =>
    intro id found
    rw [get?_place] at found
    split at found
    · next same => exact same ▸ List.mem_cons_self
    · exact List.mem_cons_of_mem _ (intact.made id found)

theorem changed (intact : s.Intact made) {change : PrimitiveId → Primitive → Primitive}
    (same : ∀ id, next.get? id = (s.get? id).map (change id))
    (points : ∀ id p, s.get? id = some p → p.isPoint = true → (change id p).isPoint = true)
    (fits : ∀ id p, s.get? id = some p → s.Fits p → s.Fits (change id p))
    (solved : ∀ id, (next.solvedPosition? id).isSome → (s.get? id).isSome) :
    next.Intact made := by
  have hasPoint : ∀ r, s.HasPoint r → next.HasPoint r := by
    rintro r ⟨p, found, point⟩
    exact ⟨change r p, by rw [same, found, Option.map_some], points r p found point⟩
  constructor
  case fits =>
    intro id q found
    rw [same] at found
    obtain ⟨p, before, rfl⟩ := Option.map_eq_some_iff.mp found
    exact (fits id p before (intact.fits id p before)).mono fun r _ => hasPoint r
  case solved =>
    intro id found
    rw [same, Option.isSome_map]
    exact solved id found
  case made =>
    intro id found
    rw [same, Option.isSome_map] at found
    exact intact.made id found

theorem removes (intact : s.Intact made) {removed : List PrimitiveId}
    (removes : s.Removes removed next)
    (whole : (∀ other, ¬ s.Lacks other) → ∀ other, ¬ next.Lacks other) : next.Intact made := by
  have before : ∀ id p, next.get? id = some p → s.get? id = some p := by
    intro id p found
    rw [removes.get?, Option.ite_none_left_eq_some] at found
    exact found.2
  have unbroken : ∀ other, ¬ s.Lacks other := by
    rintro other ⟨p, found, r, mentioned, missing⟩
    obtain ⟨q, there, _⟩ := (intact.fits other p found).points r mentioned
    rw [missing] at there
    cases there
  constructor
  case fits =>
    intro id p found
    have fits := intact.fits id p (before id p found)
    refine ⟨fun r mentioned => ?_, fits.radius⟩
    obtain ⟨q, there, point⟩ := fits.points r mentioned
    -- Nothing is left behind, so what defines the primitive was not removed.
    cases still : next.get? r with
    | none => exact absurd ⟨p, found, r, mentioned, still⟩ (whole unbroken id)
    | some q' =>
      have same : q' = q := Option.some.inj ((before r q' still).symm.trans there)
      exact ⟨q', still, same ▸ point⟩
  case solved =>
    intro id found
    rw [removes.solvedPosition?] at found
    rw [removes.get?]
    split at found
    · cases found
    · next kept =>
      rw [if_neg kept]
      exact intact.solved id found
  case made =>
    intro id found
    obtain ⟨p, found⟩ := Option.isSome_iff_exists.mp found
    exact intact.made id (before id p found ▸ rfl)

theorem leads {more : List PrimitiveId} (intact : s.Intact made) (included : made ⊆ more)
    (supplied : ∀ id, e.fresh? = some id → id ∉ made ∧ id ∈ more) (leads : e.Leads s next) :
    next.Intact more := by
  have kept := intact.mono included
  cases leads with
  | @makes _ fresh shape makes fits =>
    obtain ⟨unused, member⟩ := supplied fresh (by rw [Edit.fresh?, makes, Option.map_some])
    exact (intact.place unused fits).mono (List.cons_subset.mpr ⟨member, included⟩)
  | @moves id x y point =>
    refine kept.changed (fun _ => get?_moveTo x y) ?_ ?_ ?_
    · intro other p _ isPoint
      split
      · rfl
      · exact isPoint
    · intro other p _ fits
      split
      · exact fits_point x y p.construction
      · exact fits
    · intro other found
      rw [solvedPosition?_moveTo point] at found
      split at found
      · cases found
      · exact intact.solved other found
  | @marks id construction present =>
    refine kept.changed (fun _ => get?_mark construction) ?_ ?_ intact.solved
    · intro other p _ isPoint
      split <;> exact isPoint
    · intro other p _ fits
      split
      · exact ⟨fits.points, fits.radius⟩
      · exact fits
  | removes _ removes whole => exact kept.removes removes whole
  | solves positions =>
    refine ⟨fun id p found => (kept.fits id p found).mono fun _ _ point => point, ?_, kept.made⟩
    intro id found
    rw [solvedPosition?_setSolved] at found
    split at found
    · next present => exact present
    · exact intact.solved id found
  | clears =>
    exact ⟨fun id p found => (kept.fits id p found).mono fun _ _ point => point, nofun, kept.made⟩

theorem step {more : List PrimitiveId} (intact : s.Intact made) (included : made ⊆ more)
    (supplied : ∀ id, e.fresh? = some id → id ∉ made ∧ id ∈ more) : (s.step e).Intact more := by
  cases answer : e.apply s with
  | ok next =>
    rw [step_of_ok answer]
    exact intact.leads included supplied (leads_of_ok answer)
  | error reason =>
    rw [step_of_error answer]
    exact intact.mono included

theorem after (first : SketchId) (name : String) (plane : PlaneId) {edits : List Edit}
    (fresh : (edits.filterMap Edit.fresh?).Nodup) :
    ((new first name plane).after edits).Intact (edits.filterMap Edit.fresh?) := by
  induction edits using List.reverseRecOn with
  | nil => exact new_intact first name plane
  | append_singleton before e ih =>
    obtain ⟨distinct, unused⟩ := fresh_last fresh
    rw [after_append, List.filterMap_append]
    refine (ih distinct).step (List.subset_append_left _ _) fun id supplied => ?_
    exact ⟨unused id supplied, List.mem_append_right _ (by simp [supplied])⟩

end Intact

/-! ## How far a removal goes -/

theorem referencing_nodup (s : Sketch) (id : PrimitiveId) : (s.referencing id).Nodup :=
  (List.filter_sublist.map _).nodup s.primitives.keys_nodup

theorem referencing_eq_nil : s.referencing id = [] ↔
    ∀ other p, s.get? other = some p → id ∉ p.references := by
  simp only [List.eq_nil_iff_forall_not_mem, mem_referencing, not_exists, not_and]

theorem referencing_drop (unmentioned : s.referencing other = []) :
    (s.drop id).referencing other = [] := by
  rw [referencing_eq_nil] at unmentioned ⊢
  intro another p found
  rw [get?_drop, Option.ite_none_left_eq_some] at found
  exact unmentioned another p found.2

theorem removePending_unmentioned {pending : List PrimitiveId} (distinct : pending.Nodup)
    (present : ∀ id ∈ pending, (s.get? id).isSome)
    (unmentioned : ∀ id ∈ pending, s.referencing id = []) :
    s.removePending pending = (pending, pending.foldl drop s) := by
  induction pending generalizing s with
  | nil => rw [removePending, List.foldl_nil]
  | cons first rest ih =>
    obtain ⟨apart, distinct⟩ := List.nodup_cons.mp distinct
    obtain ⟨here, present⟩ := List.forall_mem_cons.mp present
    obtain ⟨alone, unmentioned⟩ := List.forall_mem_cons.mp unmentioned
    have left := ih (s := s.drop first) distinct
      (fun id member => by
        rw [get?_drop, if_neg (ne_of_mem_of_not_mem member apart)]
        exact present id member)
      (fun id member => referencing_drop (unmentioned id member))
    rw [removePending_cons, if_pos here, referencing_drop alone]
    simp only [List.reverse_nil, List.nil_append, left, List.foldl_cons]

/-- Only points define primitives, so what a primitive defines directly is all that goes with
it. -/
theorem Intact.remove_eq (intact : s.Intact made) (present : (s.get? id).isSome) :
    s.remove id = (id :: ((s.drop id).referencing id).reverse,
      ((s.drop id).referencing id).reverse.foldl drop (s.drop id)) := by
  rw [remove, removePending_cons, if_pos present, List.append_nil, removePending_unmentioned]
  · exact List.nodup_reverse.mpr (referencing_nodup _ _)
  · intro other member
    obtain ⟨p, found, _⟩ := mem_referencing.mp (List.mem_reverse.mp member)
    exact found ▸ rfl
  · intro other member
    obtain ⟨p, found, defined⟩ := mem_referencing.mp (List.mem_reverse.mp member)
    apply referencing_drop
    rw [referencing_eq_nil]
    intro another q there mentioned
    obtain ⟨p', same, point⟩ := (intact.fits another q there).points other mentioned
    rw [get?_drop, Option.ite_none_left_eq_some] at found
    cases same.symm.trans found.2
    rw [references_of_isPoint point] at defined
    cases defined

theorem danglingReferences_eq_nil (whole : ∀ id, ¬ s.Lacks id) : s.danglingReferences = [] := by
  unfold danglingReferences
  rw [List.flatMap_eq_nil_iff]
  rintro ⟨id, p⟩ member
  rw [List.map_eq_nil_iff, List.filter_eq_nil_iff]
  intro r mentioned missing
  refine whole id ⟨p, SortedMap.mem_entries.mp member, r, mentioned, ?_⟩
  simpa [SortedMap.contains, get?] using missing

/-- Any edits of a new sketch, refused ones among them, leave it with references to its points
only, with circles of finite and positive radius and with solved positions of its primitives. A
refused edit has a true reason and changes nothing. -/
theorem edits_keep_references (first : SketchId) (name : String) (plane : PlaneId)
    (edits : List Edit) (fresh : (edits.filterMap Edit.fresh?).Nodup) :
    let s := (new first name plane).after edits
    (∀ id p, s.get? id = some p → ∀ r ∈ p.references, s.HasPoint r) ∧
    s.danglingReferences = [] ∧
    (∀ id center radius construction, s.get? id = some ⟨.circle center radius, construction⟩ →
      radius.isFinite = true ∧ 0.0 < radius) ∧
    (∀ id ∈ s.solved.keys, (s.get? id).isSome) ∧
    ∀ e reason, e.apply s = .error reason → s.step e = s ∧ reason.Holds s := by
  intro s
  have intact : s.Intact (edits.filterMap Edit.fresh?) := Intact.after first name plane fresh
  have references : ∀ id p, s.get? id = some p → ∀ r ∈ p.references, s.HasPoint r :=
    fun id p found => (intact.fits id p found).points
  refine ⟨references, danglingReferences_eq_nil ?_, ?_, ?_, ?_⟩
  · rintro id ⟨p, found, r, mentioned, missing⟩
    obtain ⟨q, there, _⟩ := references id p found r mentioned
    rw [missing] at there
    cases there
  · intro id center radius construction found
    exact (intact.fits id _ found).radius center radius rfl
  · intro id key
    exact intact.solved id (SortedMap.mem_keys.mp key)
  · intro e reason refused
    exact ⟨step_of_error refused, holds_of_error refused⟩

def cornerEdits : List Edit :=
  [.addPoint ⟨1⟩ 0.0 0.0, .addPoint ⟨2⟩ 4.0 0.0, .addLine ⟨3⟩ ⟨1⟩ ⟨2⟩, .addCircle ⟨4⟩ ⟨3⟩ 1.0,
    .addCircle ⟨5⟩ ⟨1⟩ 2.0, .setSolved [(⟨1⟩, ⟨1.0, 1.0⟩), (⟨2⟩, ⟨5.0, 1.0⟩)]]

theorem edits_keep_references_corner :
    let s := (new ⟨1⟩ "Sketch 1" ⟨7⟩).after (cornerEdits ++ [Edit.remove ⟨1⟩])
    s.primitives.keys = [⟨2⟩] ∧ s.solved.keys = [⟨2⟩] ∧ s.danglingReferences = [] := by
  have fresh : ((cornerEdits ++ [Edit.remove ⟨1⟩]).filterMap Edit.fresh?).Nodup := by decide +kernel
  have present : (((new ⟨1⟩ "Sketch 1" ⟨7⟩).after cornerEdits).get? ⟨1⟩).isSome := by decide +kernel
  have removed := (Intact.after ⟨1⟩ "Sketch 1" ⟨7⟩ (by decide +kernel)).remove_eq present
  intro s
  have last : s = (((new ⟨1⟩ "Sketch 1" ⟨7⟩).after cornerEdits).remove ⟨1⟩).2 := rfl
  refine ⟨?_, ?_, (edits_keep_references ⟨1⟩ "Sketch 1" ⟨7⟩ _ fresh).2.1⟩
  · rw [last, removed]
    decide +kernel
  · rw [last, removed]
    decide +kernel

end Sketch

end Parametric
