import Mathlib.Data.List.Induction
import Mathlib.Data.List.Nodup
import Parametric.Proofs.SortedMap
import Parametric.Sketch
/-! Edits of a sketch, and what each of them leaves at an identifier.

A removal works through a list of primitives that wait. It drops what it lists and nothing else,
and it leaves no reference behind to what it drops.
-/

set_option autoImplicit false

namespace Parametric.Sketch

inductive Edit where
  | addPoint (fresh : PrimitiveId) (x y : Float)
  | addLine (fresh start finish : PrimitiveId)
  | addCircle (fresh center : PrimitiveId) (radius : Float)
  | addArc (fresh center start finish : PrimitiveId) (clockwise : Bool)
  | movePoint (id : PrimitiveId) (x y : Float)
  | setConstruction (id : PrimitiveId) (construction : Bool)
  | remove (id : PrimitiveId)
  | setSolved (positions : List (PrimitiveId × Vec2))
  | clearSolved

namespace Edit

/-- The call that an edit makes. -/
def call : Edit → Call Unit
  | addPoint fresh x y => modify (·.addPoint fresh x y)
  | addLine fresh start finish => Call.addLine fresh start finish
  | addCircle fresh center radius => Call.addCircle fresh center radius
  | addArc fresh center start finish clockwise => Call.addArc fresh center start finish clockwise
  | movePoint id x y => Call.movePoint id x y
  | setConstruction id construction => Call.setConstruction id construction
  | remove id => modify fun s => (s.remove id).2
  | setSolved positions => modify (·.setSolved positions)
  | clearSolved => modify (·.clearSolved)

def apply (s : Sketch) (e : Edit) : Except SketchError Sketch :=
  e.call.outcome s

def makes? : Edit → Option (PrimitiveId × Shape)
  | addPoint fresh x y => some (fresh, .point x y)
  | addLine fresh start finish => some (fresh, .line start finish)
  | addCircle fresh center radius => some (fresh, .circle center radius)
  | addArc fresh center start finish clockwise => some (fresh, .arc center start finish clockwise)
  | movePoint .. | setConstruction .. | remove _ | setSolved _ | clearSolved => none

def fresh? (e : Edit) : Option PrimitiveId :=
  e.makes?.map (·.1)

end Edit

/-- The sketch that an edit leaves, accepted or refused. -/
def step (s : Sketch) (e : Edit) : Sketch :=
  (e.call s).2

def after (s : Sketch) (edits : List Edit) : Sketch :=
  edits.foldl step s

def HasPoint (s : Sketch) (id : PrimitiveId) : Prop :=
  ∃ p, s.get? id = some p ∧ p.isPoint = true

variable {s next : Sketch} {id other r : PrimitiveId} {p : Primitive} {e : Edit}

@[simp] theorem after_nil : s.after [] = s := rfl

@[simp] theorem after_append (edits more : List Edit) :
    s.after (edits ++ more) = (s.after edits).after more :=
  List.foldl_append

@[simp] theorem after_cons (edits : List Edit) : s.after (e :: edits) = (s.step e).after edits :=
  rfl

/-! ## Accepted and refused calls -/

namespace Call

/-- A call that is refused leaves the sketch as it was. -/
def Guarded (call : Call Unit) : Prop :=
  ∀ s reason, (call s).1 = .error reason → (call s).2 = s

variable {call : Call Unit} {rest : Unit → Call Unit} {reason : SketchError}

theorem left_of_ok (accepted : call.outcome s = .ok next) : (call s).2 = next := by
  unfold outcome at accepted
  split at accepted
  · next answer =>
    rw [answer]
    exact Except.ok.inj accepted
  · cases accepted

theorem answer_of_error (refused : call.outcome s = .error reason) :
    (call s).1 = .error reason := by
  unfold outcome at refused
  split at refused
  · cases refused
  · next answer =>
    rw [answer]
    exact congrArg Except.error (Except.error.inj refused)

theorem check_bind (test : Sketch → Except SketchError Unit) (rest : Unit → Call Unit)
    (s : Sketch) : (check test >>= rest) s = match test s with
      | .ok _ => rest () s
      | .error reason => (.error reason, s) := by
  change ExceptT.bindCont rest (test s) s = _
  cases test s <;> rfl

theorem outcome_check (test : Sketch → Except SketchError Unit) (rest : Unit → Call Unit) :
    outcome (check test >>= rest) s = test s >>= fun _ => (rest ()).outcome s := by
  unfold outcome
  rw [check_bind]
  cases test s <;> rfl

theorem setConstruction_eq (id : PrimitiveId) (construction : Bool) (s : Sketch) :
    setConstruction id construction s = match s.get? id with
      | none => (.error (.missingPrimitive id), s)
      | some _ => (.ok (), { s with
          primitives := s.primitives.modify id fun p => { p with construction } }) := by
  change (match s.get? id with
    | none => throw (.missingPrimitive id)
    | some _ => modify _ : Call Unit) s = _
  cases s.get? id <;> rfl

theorem guarded_modify (change : Sketch → Sketch) : Guarded (modify change) := by
  intro s reason refused
  cases refused

theorem Guarded.check {test : Sketch → Except SketchError Unit} (guarded : Guarded (rest ())) :
    Guarded (check test >>= rest) := by
  intro s reason refused
  rw [check_bind] at refused ⊢
  cases answer : test s with
  | ok =>
    rw [answer] at refused
    exact guarded s reason refused
  | error => rfl

theorem guarded_addCircle (fresh center : PrimitiveId) (radius : Float) :
    Guarded (addCircle fresh center radius) := by
  refine .check ?_
  split
  · exact guarded_modify _
  · exact fun _ _ _ => rfl

theorem guarded_movePoint (id : PrimitiveId) (x y : Float) : Guarded (movePoint id x y) := by
  refine .check fun s reason refused => ?_
  cases refused

theorem guarded_setConstruction (id : PrimitiveId) (construction : Bool) :
    Guarded (setConstruction id construction) := by
  intro s reason refused
  rw [setConstruction_eq] at refused ⊢
  split at refused
  · rfl
  · cases refused

end Call

/-- Every call looks at the sketch before it changes anything. -/
theorem Edit.guarded_call (e : Edit) : e.call.Guarded := by
  cases e with
  | addLine fresh start finish => exact .check (.check (Call.guarded_modify _))
  | addCircle fresh center radius => exact Call.guarded_addCircle fresh center radius
  | addArc fresh center start finish clockwise =>
    exact .check (.check (.check (Call.guarded_modify _)))
  | movePoint id x y => exact Call.guarded_movePoint id x y
  | setConstruction id construction => exact Call.guarded_setConstruction id construction
  | addPoint | remove | setSolved | clearSolved => exact Call.guarded_modify _

theorem step_of_ok (accepted : e.apply s = .ok next) : s.step e = next :=
  Call.left_of_ok accepted

theorem step_of_error {reason : SketchError} (refused : e.apply s = .error reason) :
    s.step e = s :=
  e.guarded_call s reason (Call.answer_of_error refused)

theorem requirePoint_eq_ok : s.requirePoint id = .ok () ↔ s.HasPoint id := by
  unfold requirePoint HasPoint
  cases s.get? id with
  | none => simp
  | some p => simp

/-! ## Look-ups after each change -/

theorem get?_place (fresh : PrimitiveId) (shape : Shape) : (s.place fresh shape).get? other =
    if other = fresh then some ⟨shape, false⟩ else s.get? other :=
  s.primitives.get?_insert fresh other _

def moveTo (s : Sketch) (id : PrimitiveId) (x y : Float) : Sketch :=
  Sketch.invalidate { s with
    primitives := s.primitives.modify id fun p => { p with shape := .point x y } } id

def mark (s : Sketch) (id : PrimitiveId) (construction : Bool) : Sketch :=
  { s with primitives := s.primitives.modify id fun p => { p with construction } }

/-! ## What the calls check -/

theorem addLine_eq (s : Sketch) (fresh start finish : PrimitiveId) :
    s.addLine fresh start finish = do
      s.requirePoint start
      s.requirePoint finish
      return s.place fresh (.line start finish) := by
  rw [addLine, Call.addLine, Call.outcome_check, Call.outcome_check]
  rfl

theorem addCircle_eq (s : Sketch) (fresh center : PrimitiveId) (radius : Float) :
    s.addCircle fresh center radius = s.requirePoint center >>= fun _ =>
      if radius.isFinite && 0.0 < radius then .ok (s.place fresh (.circle center radius))
      else .error (.invalidRadius radius) := by
  rw [addCircle, Call.addCircle, Call.outcome_check]
  congr 1
  funext _
  split <;> rfl

theorem addArc_eq (s : Sketch) (fresh center start finish : PrimitiveId) (clockwise : Bool) :
    s.addArc fresh center start finish clockwise = do
      s.requirePoint center
      s.requirePoint start
      s.requirePoint finish
      return s.place fresh (.arc center start finish clockwise) := by
  rw [addArc, Call.addArc, Call.outcome_check, Call.outcome_check, Call.outcome_check]
  rfl

theorem movePoint_eq (s : Sketch) (id : PrimitiveId) (x y : Float) : s.movePoint id x y = do
    s.requirePoint id
    return s.moveTo id x y := by
  rw [movePoint, Call.movePoint, Call.outcome_check]
  rfl

theorem setConstruction_eq (s : Sketch) (id : PrimitiveId) (construction : Bool) :
    s.setConstruction id construction = match s.get? id with
      | none => .error (.missingPrimitive id)
      | some _ => .ok (s.mark id construction) := by
  rw [setConstruction, Call.outcome, Call.setConstruction_eq]
  cases s.get? id <;> rfl

/-! ## Look-ups after changes in place -/

theorem get?_moveTo (x y : Float) : (s.moveTo id x y).get? other =
    (s.get? other).map fun p => if other = id then { p with shape := .point x y } else p :=
  s.primitives.get?_modify id other _

theorem get?_mark (construction : Bool) : (s.mark id construction).get? other =
    (s.get? other).map fun p => if other = id then { p with construction } else p :=
  s.primitives.get?_modify id other _

theorem mem_referencing :
    other ∈ s.referencing id ↔ ∃ p, s.get? other = some p ∧ id ∈ p.references := by
  unfold referencing get?
  simp only [List.mem_map, List.mem_filter, decide_eq_true_eq, Prod.exists, SortedMap.mem_entries]
  constructor
  · rintro ⟨_, p, found, rfl⟩
    exact ⟨p, found⟩
  · rintro ⟨p, found⟩
    exact ⟨other, p, found, rfl⟩

theorem get?_eraseAll {solved : SortedMap PrimitiveId Vec2} {ids : List PrimitiveId} :
    (ids.foldl (fun solved other => solved.erase other) solved).get? id =
      if id ∈ ids then none else solved.get? id := by
  induction ids generalizing solved with
  | nil => rfl
  | cons first rest ih =>
    rw [List.foldl_cons, ih, SortedMap.get?_erase]
    simp only [List.mem_cons]
    split <;> simp_all

theorem solvedPosition?_invalidate : (s.invalidate id).solvedPosition? other =
    if other = id ∨ other ∈ s.referencing id then none else s.solvedPosition? other := by
  unfold invalidate solvedPosition?
  rw [get?_eraseAll]
  simp only [List.mem_cons]

@[simp] theorem references_point (x y : Float) (construction : Bool) :
    (⟨.point x y, construction⟩ : Primitive).references = [] := rfl

theorem references_of_isPoint (point : p.isPoint = true) : p.references = [] := by
  obtain ⟨shape, construction⟩ := p
  cases shape with
  | point x y => rfl
  | line | circle | arc => cases point

theorem solvedPosition?_moveTo (point : s.HasPoint id) (x y : Float) :
    (s.moveTo id x y).solvedPosition? other =
      if other = id ∨ other ∈ s.referencing id then none else s.solvedPosition? other := by
  have same : other ∈ (s.moveTo id x y).referencing id ↔ other ∈ s.referencing id := by
    rw [mem_referencing, mem_referencing]
    by_cases own : other = id
    · subst own
      obtain ⟨p, found, isPoint⟩ := point
      simp [get?_moveTo, found, references_of_isPoint isPoint]
    · simp [get?_moveTo, own]
  rw [moveTo, solvedPosition?_invalidate]
  exact if_congr (or_congr_right same) rfl rfl

/-- The last value that a list of positions has for a primitive. -/
def lastListed? (positions : List (PrimitiveId × Vec2)) (id : PrimitiveId) : Option Vec2 :=
  ((positions.filter (·.1 = id)).getLast?).map (·.2)

theorem solvedPosition?_setSolved {positions : List (PrimitiveId × Vec2)} :
    (s.setSolved positions).solvedPosition? id =
      if s.primitives.contains id then (lastListed? positions id).or (s.solvedPosition? id)
      else s.solvedPosition? id := by
  unfold setSolved solvedPosition? lastListed?
  induction positions using List.reverseRecOn with
  | nil => simp
  | append_singleton before last ih =>
    obtain ⟨listed, position⟩ := last
    rw [List.foldl_append, List.foldl_cons, List.foldl_nil, List.filter_append]
    by_cases own : listed = id
    · subst own
      by_cases present : s.primitives.contains listed = true
      · simp [present]
      · simpa [present] using ih
    · split
      · rw [SortedMap.get?_insert, if_neg (Ne.symm own), ih]
        simp [own]
      · rw [ih]
        simp [own]

/-! ## Removal -/

theorem get?_drop : (s.drop id).get? other = if other = id then none else s.get? other :=
  s.primitives.get?_erase id other

theorem solvedPosition?_drop :
    (s.drop id).solvedPosition? other = if other = id then none else s.solvedPosition? other :=
  s.solved.get?_erase id other

theorem removePending_cons (id : PrimitiveId) (pending : List PrimitiveId) :
    s.removePending (id :: pending) =
      if (s.get? id).isSome then
        let final := (s.drop id).removePending (((s.drop id).referencing id).reverse ++ pending)
        (id :: final.1, final.2)
      else s.removePending pending := by
  rw [removePending]
  split <;> rfl

/-- A removal drops what it lists, and nothing else of the sketch. -/
structure Removes (s : Sketch) (removed : List PrimitiveId) (next : Sketch) : Prop where
  get? : ∀ id, next.get? id = if id ∈ removed then none else s.get? id
  solvedPosition? : ∀ id,
    next.solvedPosition? id = if id ∈ removed then none else s.solvedPosition? id
  present : ∀ id ∈ removed, (s.get? id).isSome
  kept : (next.id, next.name, next.plane) = (s.id, s.name, s.plane)

namespace Removes

variable {removed : List PrimitiveId}

theorem nil : s.Removes [] s := ⟨fun _ => rfl, fun _ => rfl, nofun, rfl⟩

theorem cons (present : (s.get? id).isSome) (removes : (s.drop id).Removes removed next) :
    s.Removes (id :: removed) next where
  get? other := by
    rw [removes.get?, get?_drop]
    by_cases first : other = id <;> simp [first]
  solvedPosition? other := by
    rw [removes.solvedPosition?, solvedPosition?_drop]
    by_cases first : other = id <;> simp [first]
  present other member := by
    rcases List.mem_cons.mp member with rfl | later
    · exact present
    · have found := removes.present other later
      rw [get?_drop] at found
      split at found
      · cases found
      · exact found
  kept := removes.kept

end Removes

theorem removes_removePending (pending : List PrimitiveId) :
    s.Removes (s.removePending pending).1 (s.removePending pending).2 := by
  induction s, pending using removePending.induct with
  | case1 s =>
    rw [removePending]
    exact .nil
  | case2 s id rest present smaller _ _ _ ih =>
    rw [removePending_cons, if_pos present]
    exact ih.cons present
  | case3 s id rest absent ih =>
    rw [removePending_cons, if_neg absent]
    exact ih

def Mentions (s : Sketch) (id r : PrimitiveId) : Prop :=
  ∃ p, s.get? id = some p ∧ r ∈ p.references

theorem mentions_drop :
    (s.drop id).Mentions other r ↔ other ≠ id ∧ s.Mentions other r := by
  unfold Mentions
  simp only [get?_drop, Option.ite_none_left_eq_some]
  constructor
  · rintro ⟨p, ⟨apart, found⟩, mentioned⟩
    exact ⟨apart, p, found, mentioned⟩
  · rintro ⟨apart, p, found, mentioned⟩
    exact ⟨p, ⟨apart, found⟩, mentioned⟩

/-- If only primitives that wait mention something missing among what is wanted, none does when
they are gone. -/
theorem get?_of_mentions_removePending {wanted : PrimitiveId → Prop} {pending : List PrimitiveId}
    (waiting : ∀ id r, s.Mentions id r → wanted r → s.get? r = none → id ∈ pending) :
    ∀ id r, (s.removePending pending).2.Mentions id r → wanted r →
      (s.removePending pending).2.get? r ≠ none := by
  induction s, pending using removePending.induct with
  | case1 s =>
    rw [removePending]
    exact fun id r mentions wants missing =>
      List.not_mem_nil (waiting id r mentions wants missing)
  | case2 s id rest present smaller _ _ _ ih =>
    rw [removePending_cons, if_pos present]
    refine ih fun other r mentions wants missing => ?_
    rw [List.mem_append, List.mem_reverse]
    by_cases last : r = id
    · subst last
      exact .inl (mem_referencing.mpr mentions)
    · obtain ⟨apart, before⟩ := mentions_drop.mp mentions
      rw [get?_drop, if_neg last] at missing
      have waits := waiting other r before wants missing
      exact .inr ((List.mem_cons.mp waits).resolve_left apart)
  | case3 s id rest absent ih =>
    rw [removePending_cons, if_neg absent]
    refine ih fun other r mentions wants missing => ?_
    refine (List.mem_cons.mp (waiting other r mentions wants missing)).resolve_left ?_
    rintro rfl
    obtain ⟨p, found, _⟩ := mentions
    exact absent (found ▸ rfl)

/-- A primitive lacks one that defines it. -/
def Lacks (s : Sketch) (id : PrimitiveId) : Prop :=
  ∃ p, s.get? id = some p ∧ ∃ r ∈ p.references, s.get? r = none

theorem not_lacks_removePending {pending : List PrimitiveId}
    (waiting : ∀ id, s.Lacks id → id ∈ pending) :
    ∀ id, ¬ (s.removePending pending).2.Lacks id := by
  have waits : ∀ other r, s.Mentions other r → True → s.get? r = none → other ∈ pending := by
    rintro other r ⟨p, found, mentioned⟩ _ missing
    exact waiting other ⟨p, found, r, mentioned, missing⟩
  rintro id ⟨p, found, r, mentioned, missing⟩
  exact get?_of_mentions_removePending waits id r ⟨p, found, mentioned⟩ trivial missing

end Parametric.Sketch
