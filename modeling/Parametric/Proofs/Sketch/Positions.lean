import Parametric.Proofs.Sketch.Integrity
/-! Where the positions in a sketch come from.

A value that edits write and drop is the one that was written last, unless it was dropped since.
Solved positions and coordinates are such values. A move drops the solved positions of what the
point defines directly; nothing else depends on the point, since only points define primitives.
-/

set_option autoImplicit false

namespace Parametric

def Primitive.coordinates? (p : Primitive) : Option Vec2 :=
  match p.shape with
  | .point x y => some ⟨x, y⟩
  | _ => none

namespace Sketch

variable {s next start : Sketch} {id : PrimitiveId} {p q : Primitive} {e : Edit}
  {made : List PrimitiveId}

/-! ## The last write of a run -/

section

variable {α : Type}

/-- An edit of a run writes a value, and no later one writes or drops it. What an edit writes and
drops is read off the sketch that it is given. -/
def LastWrite (start : Sketch) (writes? : Sketch → Edit → Option α) (drops : Sketch → Edit → Bool)
    (edits : List Edit) (value : α) : Prop :=
  ∃ before e later, edits = before ++ e :: later ∧ writes? (start.after before) e = some value ∧
    ∀ part f rest, later = part ++ f :: rest →
      writes? (start.after (before ++ e :: part)) f = none ∧
      drops (start.after (before ++ e :: part)) f = false

variable {writes? : Sketch → Edit → Option α} {drops : Sketch → Edit → Bool} {edits : List Edit}
  {value : α}

theorem lastWrite_concat : LastWrite start writes? drops (edits ++ [e]) value ↔
    writes? (start.after edits) e = some value ∨
      (writes? (start.after edits) e = none ∧ drops (start.after edits) e = false) ∧
        LastWrite start writes? drops edits value := by
  constructor
  · rintro ⟨before, f, later, same, wrote, quiet⟩
    rcases List.eq_nil_or_concat later with rfl | ⟨part, last, rfl⟩
    · obtain ⟨rfl, single⟩ := List.append_inj' same rfl
      cases single
      exact .inl wrote
    · have split : edits ++ [e] = (before ++ f :: part) ++ [last] := by simpa using same
      obtain ⟨rfl, single⟩ := List.append_inj' split rfl
      cases single
      refine .inr ⟨quiet part e [] (by simp), before, f, part, rfl, wrote, ?_⟩
      rintro early g rest rfl
      exact quiet early g (rest ++ [e]) (by simp)
  · rintro (wrote | ⟨still, before, f, later, rfl, wrote, quiet⟩)
    · exact ⟨edits, e, [], rfl, wrote, by simp⟩
    · refine ⟨before, f, later ++ [e], by simp, wrote, ?_⟩
      intro part g rest same
      rcases List.eq_nil_or_concat rest with rfl | ⟨early, last, rfl⟩
      · obtain ⟨rfl, single⟩ := List.append_inj' same rfl
        cases single
        exact still
      · have split : later ++ [e] = (part ++ g :: early) ++ [last] := by simpa using same
        obtain ⟨rfl, _⟩ := List.append_inj' split rfl
        exact quiet part g early rfl

end

/-! ## What edits write and drop -/

namespace Edit

def solves? (id : PrimitiveId) (s : Sketch) : Edit → Option Vec2
  | setSolved positions => if s.primitives.contains id then lastListed? positions id else none
  | _ => none

/-- An edit drops the solved position of a primitive: all are cleared, or the primitive or one
of its references is moved. -/
def unsolves (id : PrimitiveId) (references : List PrimitiveId) (s : Sketch) : Edit → Bool
  | clearSolved => true
  | movePoint moved x y => (s.movePoint moved x y).isOk && (moved = id || references.contains moved)
  | _ => false

/-- The coordinates that an edit gives to a point: those it is made with or moved to. -/
def places? (id : PrimitiveId) (s : Sketch) : Edit → Option Vec2
  | addPoint fresh x y => if fresh = id then some ⟨x, y⟩ else none
  | movePoint moved x y => if (s.movePoint moved x y).isOk ∧ moved = id then some ⟨x, y⟩ else none
  | _ => none

end Edit

theorem movePoint_isOk {x y : Float} : (s.movePoint id x y).isOk = true ↔ s.HasPoint id := by
  rw [← requirePoint_eq_ok, movePoint_eq]
  cases s.requirePoint id with
  | ok => simp [Except.isOk, Except.toBool, bind, Except.bind, pure, Except.pure]
  | error => simp [Except.isOk, Except.toBool, bind, Except.bind]

/-- An edit neither writes nor drops anything at a primitive. -/
structure Edit.Quiet (id : PrimitiveId) (references : List PrimitiveId) (s : Sketch) (e : Edit) :
    Prop where
  solves? : e.solves? id s = none
  unsolves : e.unsolves id references s = false
  places? : e.places? id s = none

theorem quiet_of_error {reason : SketchError} (refused : e.apply s = .error reason)
    (references : List PrimitiveId) : e.Quiet id references s := by
  cases e with
  | addPoint | remove | setSolved | clearSolved => cases refused
  | addLine | addCircle | addArc | setConstruction => exact ⟨rfl, rfl, rfl⟩
  | movePoint moved x y =>
    have failed : (s.movePoint moved x y).isOk = false := by
      rw [show s.movePoint moved x y = .error reason from refused]
      rfl
    constructor
    · rfl
    · rw [Edit.unsolves, failed, Bool.false_and]
    · rw [Edit.places?, failed]
      rfl

theorem quiet_of_makes {fresh : PrimitiveId} {shape : Shape}
    (makes : e.makes? = some (fresh, shape)) (other : fresh ≠ id)
    (references : List PrimitiveId) : e.Quiet id references s := by
  cases e with
  | addPoint =>
    cases makes
    exact ⟨rfl, rfl, if_neg other⟩
  | addLine | addCircle | addArc => exact ⟨rfl, rfl, rfl⟩
  | movePoint | setConstruction | remove | setSolved | clearSolved => cases makes

/-- What an edit leaves at a primitive: the same references, and values that it has written, has
dropped or has left alone. -/
structure StepAt (s : Sketch) (e : Edit) (next : Sketch) (id : PrimitiveId) (p q : Primitive) :
    Prop where
  references : q.references = p.references
  solved : next.solvedPosition? id =
    (e.solves? id s).or (if e.unsolves id p.references s then none else s.solvedPosition? id)
  coordinates : q.coordinates? = (e.places? id s).or p.coordinates?

theorem Edit.Quiet.stepAt (quiet : e.Quiet id p.references s) (before : s.get? id = some p)
    (same : next.get? id = s.get? id) (solved : next.solvedPosition? id = s.solvedPosition? id)
    (later : next.get? id = some q) : s.StepAt e next id p q := by
  obtain rfl : q = p := Option.some.inj ((later.symm.trans same).trans before)
  refine ⟨rfl, ?_, ?_⟩
  · rw [quiet.solves?, quiet.unsolves, solved]
    rfl
  · rw [quiet.places?]
    rfl

theorem stepAt_moveTo {moved : PrimitiveId} {x y : Float} (point : s.HasPoint moved)
    (before : s.get? id = some p) (later : (s.moveTo moved x y).get? id = some q) :
    s.StepAt (.movePoint moved x y) (s.moveTo moved x y) id p q := by
  have accepted : (s.movePoint moved x y).isOk = true := movePoint_isOk.mpr point
  have defines : id ∈ s.referencing moved ↔ moved ∈ p.references := by
    rw [mem_referencing, before]
    simp
  rw [get?_moveTo, before, Option.map_some, Option.some.injEq] at later
  subst later
  constructor
  case references =>
    split
    · next own =>
      obtain ⟨p', found, isPoint⟩ := point
      rw [← own, before] at found
      cases found
      exact (references_of_isPoint isPoint).symm
    · rfl
  case solved =>
    rw [solvedPosition?_moveTo point]
    simp [Edit.solves?, Edit.unsolves, accepted, defines, eq_comm (a := id)]
  case coordinates =>
    by_cases own : moved = id
    · subst own
      simp [Edit.places?, accepted, Primitive.coordinates?]
    · simp [Edit.places?, own, Ne.symm own]

theorem Intact.stepAt (intact : s.Intact made) (unused : ∀ id, e.fresh? = some id → id ∉ made)
    (before : s.get? id = some p) (later : (s.step e).get? id = some q) :
    s.StepAt e (s.step e) id p q := by
  cases answer : e.apply s with
  | error reason =>
    rw [step_of_error answer] at later ⊢
    exact (quiet_of_error answer _).stepAt before rfl rfl later
  | ok next =>
    rw [step_of_ok answer] at later ⊢
    cases leads_of_ok answer with
    | @makes _ fresh shape makes fits =>
      have other : fresh ≠ id := by
        rintro rfl
        refine unused fresh ?_ (intact.made fresh (before ▸ rfl))
        rw [Edit.fresh?, makes, Option.map_some]
      refine (quiet_of_makes makes other _).stepAt before ?_ rfl later
      rw [get?_place, if_neg (Ne.symm other)]
    | moves x y point => exact stepAt_moveTo point before later
    | @marks marked construction present =>
      rw [get?_mark, before, Option.map_some, Option.some.injEq] at later
      subst later
      refine ⟨?_, rfl, ?_⟩
      · split <;> rfl
      · split <;> rfl
    | removes _ removes whole =>
      rw [removes.get?, Option.ite_none_left_eq_some] at later
      obtain ⟨kept, later⟩ := later
      refine Edit.Quiet.stepAt ⟨rfl, rfl, rfl⟩ before ?_ ?_ ?_
      · rw [removes.get?, if_neg kept]
      · rw [removes.solvedPosition?, if_neg kept]
      · rw [removes.get?, if_neg kept, later]
    | solves positions =>
      obtain rfl : q = p := Option.some.inj (later.symm.trans before)
      have present : s.primitives.contains id = true := SortedMap.contains_of_get? before
      refine ⟨rfl, ?_, rfl⟩
      rw [solvedPosition?_setSolved, if_pos present, Edit.solves?, if_pos present]
      rfl
    | clears =>
      obtain rfl : q = p := Option.some.inj (later.symm.trans before)
      exact ⟨rfl, rfl, rfl⟩

theorem Intact.step_appears (intact : s.Intact made) (missing : s.get? id = none)
    (later : (s.step e).get? id = some q) :
    e.makes? = some (id, q.shape) ∧ (s.step e).solvedPosition? id = none := by
  have unsolved : s.solvedPosition? id = none := by
    rw [← Option.not_isSome_iff_eq_none]
    intro found
    have present := intact.solved id found
    rw [missing] at present
    cases present
  cases answer : e.apply s with
  | error reason =>
    rw [step_of_error answer, missing] at later
    cases later
  | ok next =>
    rw [step_of_ok answer] at later ⊢
    cases leads_of_ok answer with
    | makes makes fits =>
      rw [get?_place] at later
      split at later
      · next same =>
        cases later
        exact ⟨same ▸ makes, unsolved⟩
      · rw [missing] at later
        cases later
    | moves x y point =>
      rw [get?_moveTo, missing] at later
      cases later
    | marks construction present =>
      rw [get?_mark, missing] at later
      cases later
    | removes _ removes whole =>
      rw [removes.get?, missing, ite_self] at later
      cases later
    | solves | clears => cases missing.symm.trans later

/-! ## Runs of edits -/

section

variable {first : SketchId} {name : String} {plane : PlaneId} {edits : List Edit}
  {drops : Sketch → Edit → Bool} {value : Vec2}

theorem present_of_solves (wrote : e.solves? id s = some value) : (s.get? id).isSome := by
  unfold Edit.solves? at wrote
  split at wrote
  · split at wrote
    · next present => exact present
    · cases wrote
  · cases wrote

theorem made_of_places (wrote : e.places? id s = some value) :
    (s.get? id).isSome ∨ e.fresh? = some id := by
  unfold Edit.places? at wrote
  split at wrote
  · split at wrote
    · next same => exact .inr (same ▸ rfl)
    · cases wrote
  · split at wrote
    · next accepted =>
      obtain ⟨p, found, _⟩ := movePoint_isOk.mp accepted.1
      exact .inl (accepted.2 ▸ found ▸ rfl)
    · cases wrote
  · cases wrote

/-- Nothing is written for a primitive before it is made. -/
theorem not_lastWrite_of_unmade {writes? : Sketch → Edit → Option Vec2}
    (needs : ∀ s e v, writes? s e = some v → (s.get? id).isSome ∨ e.fresh? = some id)
    (distinct : (edits.filterMap Edit.fresh?).Nodup) (unmade : id ∉ edits.filterMap Edit.fresh?) :
    ¬ LastWrite (new first name plane) writes? drops edits value := by
  rintro ⟨before, e, later, rfl, wrote, _⟩
  rw [List.filterMap_append] at distinct unmade
  have early := Intact.after first name plane (List.nodup_append.mp distinct).1
  rcases needs _ e value wrote with present | supplied
  · exact unmade (List.mem_append_left _ (early.made id present))
  · exact unmade (List.mem_append_right _ (by simp [supplied]))

theorem places?_of_makes (makes : e.makes? = some (id, q.shape)) :
    e.places? id s = q.coordinates? := by
  obtain ⟨shape, construction⟩ := q
  cases e with
  | addPoint =>
    cases makes
    exact if_pos rfl
  | addLine | addCircle | addArc =>
    cases makes
    rfl
  | movePoint | setConstruction | remove | setSolved | clearSolved => cases makes

/-- The last solved position that was listed for a primitive of the sketch, while it was there:
nothing has dropped it since. -/
def LastSolved (start : Sketch) (edits : List Edit) (id : PrimitiveId) (p : Primitive) (v : Vec2) :
    Prop :=
  LastWrite start (Edit.solves? id) (Edit.unsolves id p.references) edits v

def LastPlaced (start : Sketch) (edits : List Edit) (id : PrimitiveId) (v : Vec2) : Prop :=
  LastWrite start (Edit.places? id) (fun _ _ => false) edits v

/-- The edits so far tell the solved position of a primitive and the coordinates of a point. -/
structure Told (start : Sketch) (edits : List Edit) (id : PrimitiveId) (p : Primitive) : Prop where
  solved : ∀ v,
    (start.after edits).solvedPosition? id = some v ↔ LastSolved start edits id p v
  coordinates : ∀ v, p.coordinates? = some v ↔ LastPlaced start edits id v

theorem Told.step (told : Told start edits id p)
    (step : (start.after edits).StepAt e ((start.after edits).step e) id p q) :
    Told start (edits ++ [e]) id q where
  solved v := by
    have earlier := told.solved v
    unfold LastSolved at earlier ⊢
    rw [after_append, after_cons, after_nil, step.solved, lastWrite_concat, step.references,
      ← earlier, Option.or_eq_some_iff, and_assoc]
    cases e.unsolves id p.references (start.after edits) <;> simp
  coordinates v := by
    have earlier := told.coordinates v
    unfold LastPlaced at earlier ⊢
    rw [step.coordinates, lastWrite_concat, ← earlier, Option.or_eq_some_iff]
    simp

theorem told_after (fresh : (edits.filterMap Edit.fresh?).Nodup)
    (found : ((new first name plane).after edits).get? id = some p) :
    Told (new first name plane) edits id p := by
  induction edits using List.reverseRecOn generalizing p with
  | nil => cases found
  | append_singleton before e ih =>
    obtain ⟨distinct, unused⟩ := fresh_last fresh
    have intact := Intact.after first name plane distinct
    rw [after_append, after_cons, after_nil] at found
    cases here : ((new first name plane).after before).get? id with
    | none =>
      obtain ⟨makes, unsolved⟩ := intact.step_appears here found
      have unmade := unused id (by rw [Edit.fresh?, makes, Option.map_some])
      constructor
      case solved =>
        intro v
        rw [after_append, after_cons, after_nil, unsolved, LastSolved, lastWrite_concat]
        refine ⟨(absurd · (Option.some_ne_none v).symm), ?_⟩
        rintro (wrote | ⟨_, earlier⟩)
        · have present := present_of_solves wrote
          rw [here] at present
          cases present
        · exact absurd earlier (not_lastWrite_of_unmade
            (fun _ _ _ wrote => .inl (present_of_solves wrote)) distinct unmade)
      case coordinates =>
        intro v
        rw [LastPlaced, lastWrite_concat, places?_of_makes makes]
        refine ⟨.inl, ?_⟩
        rintro (same | ⟨_, earlier⟩)
        · exact same
        · exact absurd earlier (not_lastWrite_of_unmade
            (fun _ _ _ wrote => made_of_places wrote) distinct unmade)
    | some q => exact (ih distinct here).step (intact.stepAt unused here found)

theorem position?_eq (found : s.get? id = some p) :
    s.position? id = (s.solvedPosition? id).or p.coordinates? := by
  obtain ⟨shape, construction⟩ := p
  unfold position? Primitive.coordinates?
  rw [found]
  cases s.solvedPosition? id <;> cases shape <;> rfl

theorem coordinates?_isSome (point : p.isPoint = true) : p.coordinates?.isSome := by
  obtain ⟨shape, construction⟩ := p
  cases shape with
  | point x y => rfl
  | line | circle | arc => cases point

theorem Told.position?_iff (told : Told start edits id p)
    (found : (start.after edits).get? id = some p) {v : Vec2} :
    (start.after edits).position? id = some v ↔
      LastSolved start edits id p v ∨
        (∀ w, ¬ LastSolved start edits id p w) ∧ LastPlaced start edits id v := by
  have unsolved : (start.after edits).solvedPosition? id = none ↔
      ∀ w, ¬ LastSolved start edits id p w := by
    rw [Option.eq_none_iff_forall_ne_some]
    exact forall_congr' fun w => not_congr (told.solved w)
  rw [position?_eq found, Option.or_eq_some_iff, unsolved, told.solved v, told.coordinates v]

/-- After any edits of a new sketch, refused ones among them, the solved position of a primitive
is the last one that was listed for it, unless solved positions were cleared or one of its points
was moved since. The position of a point is its solved position, or else the coordinates that it
was last moved to or made with. -/
theorem position_of_last_edits (first : SketchId) (name : String) (plane : PlaneId)
    (edits : List Edit) (fresh : (edits.filterMap Edit.fresh?).Nodup) (id : PrimitiveId)
    (p : Primitive) (found : ((new first name plane).after edits).get? id = some p) :
    let start := new first name plane
    (∀ v, (start.after edits).solvedPosition? id = some v ↔ LastSolved start edits id p v) ∧
    (p.isPoint = true → ((start.after edits).position? id).isSome ∧
      ∀ v, (start.after edits).position? id = some v ↔
        LastSolved start edits id p v ∨
          (∀ w, ¬ LastSolved start edits id p w) ∧ LastPlaced start edits id v) := by
  intro start
  have told : Told start edits id p := told_after fresh found
  refine ⟨told.solved, fun point => ⟨?_, fun v => told.position?_iff found⟩⟩
  rw [position?_eq found, Option.isSome_or, coordinates?_isSome point, Bool.or_true]

end

def movedEndEdits : List Edit :=
  [.addPoint ⟨1⟩ 0.0 0.0, .addPoint ⟨2⟩ 4.0 0.0, .addLine ⟨3⟩ ⟨1⟩ ⟨2⟩,
    .setSolved [(⟨1⟩, ⟨1.0, 1.0⟩), (⟨2⟩, ⟨5.0, 1.0⟩), (⟨3⟩, ⟨3.0, 1.0⟩)], .movePoint ⟨2⟩ 6.0 0.0,
    .movePoint ⟨3⟩ 0.0 0.0, .setConstruction ⟨3⟩ true]

theorem position_of_last_edits_movedEnd :
    let start := new ⟨7⟩ "Sketch 1" ⟨8⟩
    (movedEndEdits.filterMap Edit.fresh?).Nodup ∧
    LastSolved start movedEndEdits ⟨1⟩ ⟨.point 0.0 0.0, false⟩ ⟨1.0, 1.0⟩ ∧
    (∀ v, ¬ LastSolved start movedEndEdits ⟨3⟩ ⟨.line ⟨1⟩ ⟨2⟩, true⟩ v) ∧
    LastPlaced start movedEndEdits ⟨2⟩ ⟨6.0, 0.0⟩ := by
  intro start
  have fresh : (movedEndEdits.filterMap Edit.fresh?).Nodup := by decide +kernel
  have origin := position_of_last_edits ⟨7⟩ "Sketch 1" ⟨8⟩ movedEndEdits fresh ⟨1⟩
    ⟨.point 0.0 0.0, false⟩ (by decide +kernel)
  have line := position_of_last_edits ⟨7⟩ "Sketch 1" ⟨8⟩ movedEndEdits fresh ⟨3⟩
    ⟨.line ⟨1⟩ ⟨2⟩, true⟩ (by decide +kernel)
  have moved := position_of_last_edits ⟨7⟩ "Sketch 1" ⟨8⟩ movedEndEdits fresh ⟨2⟩
    ⟨.point 6.0 0.0, false⟩ (by decide +kernel)
  refine ⟨fresh, (origin.1 _).mp (by decide +kernel), fun v solved => ?_, ?_⟩
  · have unsolved : (start.after movedEndEdits).solvedPosition? ⟨3⟩ = none := by decide +kernel
    have found := (line.1 v).mpr solved
    rw [unsolved] at found
    cases found
  · have position : (start.after movedEndEdits).position? ⟨2⟩ = some ⟨6.0, 0.0⟩ := by
      decide +kernel
    have unsolved : (start.after movedEndEdits).solvedPosition? ⟨2⟩ = none := by decide +kernel
    rcases ((moved.2 rfl).2 _).mp position with solved | ⟨_, placed⟩
    · have found := (moved.1 _).mpr solved
      rw [unsolved] at found
      cases found
    · exact placed

end Sketch

end Parametric
