import Parametric.Proofs.Dimension
import Parametric.Proofs.Number.Range
import Parametric.Proofs.Session.Run
/-! The numbers of a session are finite.

Numbers come in as literals, as values of formulas and as values of parameters, and each way in
lets finite numbers pass only. What is stored for later, in case that a formula fails, is one of
these. So every plan that a snapshot of the session leads to consists of finite numbers.
-/

set_option autoImplicit false

namespace Parametric

theorem Formula.isFinite_radiansOfDegrees {x : Float} (finite : x.isFinite = true) :
    (radiansOfDegrees x).isFinite = true := by
  have factor : Rounding.Parts (pi / 180.0) 5030569068109113 (-58) := ⟨by decide, by rfl⟩
  exact Rounding.isFinite_mul finite factor (by decide) (by decide)

/-! ## Features and studios -/

def Feature.Numeric (feature : Feature) : Prop :=
  ∀ d ∈ feature.dimensions, d.value.isFinite = true

theorem Feature.dimensions_mapDimensions (feature : Feature)
    (change : Nat → Dimension → Dimension) :
    (feature.mapDimensions change).dimensions = feature.dimensions.mapIdx change := by
  cases feature <;> rfl

theorem Feature.Numeric.mapDimensions {feature : Feature} (numeric : feature.Numeric)
    {change : Nat → Dimension → Dimension}
    (kept : ∀ i d, d.value.isFinite = true → (change i d).value.isFinite = true) :
    (feature.mapDimensions change).Numeric := by
  intro d member
  rw [dimensions_mapDimensions] at member
  obtain ⟨i, inside, rfl⟩ := List.mem_mapIdx.mp member
  exact kept i _ (numeric _ (List.getElem_mem inside))

def PlannedFeature.number? : PlannedFeature → Option Float
  | extrude _ _ depth => some depth
  | revolve _ _ angle => some angle
  | fillet _ _ radius => some radius
  | sketch .. | boolean .. => none

namespace Studio

def Numeric (t : Studio) : Prop :=
  ∀ id node, t.nodes.get? id = some node → node.op.feature.Numeric

variable {t u : Studio}

theorem new_numeric (fresh : StudioId) (name : String) : (new fresh name).Numeric := by
  intro id node found
  cases found

theorem Numeric.append (numeric : t.Numeric) {fresh : OpId} {name : String} {feature : Feature}
    (finite : feature.Numeric) (dependencies : List OpId) :
    (t.append (.new fresh name feature) dependencies).Numeric := by
  intro id node found
  rw [Studio.append, SortedMap.get?_insert] at found
  split at found
  · cases found
    exact finite
  · exact numeric id node found

theorem Numeric.update (numeric : t.Numeric) {id : OpId} {change : Op → Op}
    (updated : t.update? id change = some u)
    (kept : ∀ o, o.feature.Numeric → (change o).feature.Numeric) : u.Numeric := by
  obtain ⟨old, there, _, rfl⟩ := update?_eq_some updated
  intro other node found
  rw [SortedMap.get?_insert] at found
  split at found
  · cases found
    exact kept old.op (numeric id old there)
  · exact numeric other node found

theorem Numeric.delete (numeric : t.Numeric) {id : OpId} {op : Op}
    (deleted : t.delete? id = some (op, u)) : u.Numeric := by
  obtain ⟨_, _, nodes, _⟩ := delete?_eq_some deleted
  intro other node found
  rw [nodes, SortedMap.get?_erase] at found
  split at found
  · cases found
  · exact numeric other node found

theorem Numeric.renameParameter (numeric : t.Numeric) (old fresh : String)
    (takes : String → Bool) : (t.renameParameter old fresh takes).Numeric := by
  intro id node found
  rw [Studio.renameParameter, SortedMap.get?_map] at found
  obtain ⟨before, there, rfl⟩ := Option.map_eq_some_iff.mp found
  have renamed {d : Dimension} (finite : d.value.isFinite = true) :
      (d.rename old fresh takes).value.isFinite = true := finite
  exact (numeric id before there).mapDimensions fun _ _ => renamed

/-- Every number in the plan of a studio is finite. -/
theorem Numeric.plan (numeric : t.Numeric) {params : Parameters}
    (finite : ∀ p ∈ params.list, p.value.isFinite = true) {planned : PlannedOp}
    (member : planned ∈ t.plan params) {x : Float} (number : planned.feature.number? = some x) :
    x.isFinite = true := by
  obtain ⟨node, visible, plans⟩ := List.mem_filterMap.mp member
  obtain ⟨id, _, found⟩ := List.mem_filterMap.mp (List.mem_filter.mp visible).1
  have stored := numeric id node found
  have resolved : ∀ d ∈ node.op.feature.dimensions, (d.resolve params).isFinite = true :=
    fun d listed => Dimension.resolve_isFinite (stored d listed) finite
  obtain ⟨feature, planned, rfl⟩ := Option.map_eq_some_iff.mp plans
  unfold planFeature? at planned
  split at planned
  · obtain ⟨_, _, rfl⟩ := Option.map_eq_some_iff.mp planned
    cases number
  · next same =>
    cases planned
    cases number
    exact resolved _ (same ▸ List.mem_singleton_self _)
  · next same =>
    cases planned
    cases number
    exact Formula.isFinite_radiansOfDegrees (resolved _ (same ▸ List.mem_singleton_self _))
  · next same =>
    cases planned
    cases number
    exact resolved _ (same ▸ List.mem_singleton_self _)
  · cases planned
    cases number

end Studio

/-! ## Documents -/

namespace Document

structure Numeric (d : Document) : Prop where
  params : ∀ p ∈ d.params.list, p.value.isFinite = true
  studios : ∀ t ∈ d.studios, t.Numeric

variable {d next : Document}

theorem new_numeric (fresh : StudioId) : (new fresh).Numeric where
  params p member := by cases member
  studios := List.forall_mem_singleton.mpr (Studio.new_numeric fresh firstStudioName)

theorem Numeric.stamp {before : Document} (numeric : d.Numeric) (now : Timestamp) :
    (Session.stamp now before d).Numeric where
  params := numeric.params
  studios t member := by
    obtain ⟨old, listed, rfl⟩ := List.mem_map.mp member
    -- The time of a change is no part of the features.
    split <;> exact numeric.studios old listed

theorem Numeric.setStudio (numeric : d.Numeric) {u : Studio} (changed : u.Numeric)
    (id : StudioId) : (d.setStudio id u).Numeric where
  params := numeric.params
  studios t member := by
    rcases mem_replaceFirst member with rfl | old
    · exact changed
    · exact numeric.studios t old

theorem Numeric.edit (numeric : d.Numeric) (edit : Parameters.Edit) {params : Parameters}
    (accepted : edit.apply d.params = .ok params) : { d with params }.Numeric where
  params := by
    obtain ⟨list, rfl, drawn⟩ := Parameters.Edit.exists_list accepted
    exact (Parameters.sane_ofList (drawn.finite numeric.params)).finite
  studios := numeric.studios

theorem Numeric.renameParameter (numeric : d.Numeric) {id : ParameterId} {name : String}
    {takes : String → Bool} (renamed : d.renameParameter id name takes = .ok next) :
    next.Numeric := by
  unfold Document.renameParameter at renamed
  split at renamed
  · cases renamed
  · next p found =>
    obtain ⟨params, accepted, same⟩ := ok_of_bind renamed
    cases same
    refine ⟨(numeric.edit (.rename id name takes) accepted).params, fun t member => ?_⟩
    obtain ⟨old, listed, rfl⟩ := List.mem_map.mp member
    exact (numeric.studios old listed).renameParameter p.name name takes

theorem Numeric.addStudio (numeric : d.Numeric) (fresh : StudioId) (name : String) :
    (d.addStudio fresh name).Numeric where
  params := numeric.params
  studios t member := by
    rcases List.mem_append.mp member with old | new
    · exact numeric.studios t old
    · exact List.mem_singleton.mp new ▸ Studio.new_numeric fresh name

theorem Numeric.removeStudio (numeric : d.Numeric) {id : StudioId} {t : Studio}
    (removed : d.removeStudio? id = some (t, next)) : next.Numeric := by
  unfold removeStudio? at removed
  dsimp only at removed
  split at removed
  · cases removed
  · split at removed
    · cases removed
      exact ⟨numeric.params, fun u member => numeric.studios u (List.mem_of_mem_eraseP member)⟩
    · cases removed

end Document

/-! ## Commands -/

namespace Session

variable {s t : Session} {now : Timestamp}

def Numeric (s : Session) : Prop :=
  s.Throughout Document.Numeric

namespace Numeric

theorem record (numeric : s.Numeric) {next : Document} (edited : next.Numeric) :
    (s.record now next).Numeric :=
  Throughout.record numeric (edited.stamp now)

theorem commit (numeric : s.Numeric) {α : Type}
    {edit : Document → Except SessionError (α × Document)} {answer : α}
    (committed : s.commit now edit = .ok (answer, t))
    (edited : ∀ next, edit s.document = .ok (answer, next) → next.Numeric) : t.Numeric := by
  obtain ⟨next, outcome, rfl⟩ := commit_eq_ok committed
  exact numeric.record (edited next outcome)

theorem changeStudio (numeric : s.Numeric) {id : StudioId} {change : Studio → Studio}
    (changed : s.changeStudio now id change = .ok t)
    (kept : ∀ u : Studio, u.Numeric → (change u).Numeric) : t.Numeric := by
  obtain ⟨u, found, rfl⟩ := changeStudio_eq_ok changed
  have before := Throughout.present numeric
  exact numeric.record
    (before.setStudio (kept u (before.studios u (List.mem_of_find?_eq_some found))) id)

theorem tryStudio (numeric : s.Numeric) {id : StudioId} {change? : Studio → Option Studio}
    {answer : Bool} (tried : s.tryStudio now id change? = .ok (answer, t))
    (kept : ∀ u v : Studio, u.Numeric → change? u = some v → v.Numeric) : t.Numeric := by
  have before := Throughout.present numeric
  rcases tryStudio_eq_ok tried with ⟨_, rfl⟩ | ⟨u, v, found, applied, _, rfl⟩
  · exact numeric.record before
  · have old := before.studios u (List.mem_of_find?_eq_some found)
    exact numeric.record (before.setStudio (kept u v old applied) id)

theorem changeParameters (numeric : s.Numeric) (edit : Parameters.Edit)
    (changed : s.changeParameters now edit.apply = .ok t) : t.Numeric := by
  obtain ⟨⟨_, _⟩, committed, rfl⟩ := ok_of_map changed
  refine numeric.commit committed fun next edited => ?_
  split at edited
  · next params accepted =>
    cases edited
    exact (Throughout.present numeric).edit edit accepted
  · cases edited

theorem enterDimension (numeric : s.Numeric) {input : String} {d : Dimension}
    (entered : s.enterDimension input = .ok d) : d.value.isFinite = true := by
  unfold Session.enterDimension at entered
  split at entered
  · next accepted =>
    cases entered
    exact Dimension.enter_isFinite Dimension.default_isFinite (Throughout.present numeric).params
      accepted
  · cases entered

theorem create (numeric : s.Numeric) {input : String} {id : StudioId} {fresh : OpId}
    {name : Studio → String} {feature : Studio → Dimension → Feature}
    {dependencies : Studio → List OpId}
    (only : ∀ u d, (feature u d).dimensions = [d])
    (created : (s.enterDimension input >>= fun d => s.changeStudio now id fun u =>
      u.append (.new fresh (name u) (feature u d)) (dependencies u)) = .ok t) : t.Numeric := by
  obtain ⟨d, entered, changed⟩ := ok_of_bind created
  refine numeric.changeStudio changed fun u kept => kept.append ?_ _
  rw [Feature.Numeric, only]
  exact List.forall_mem_singleton.mpr (numeric.enterDimension entered)

theorem run? (numeric : s.Numeric) {c : Command} (accepted : c.run? s now = some t) :
    t.Numeric := by
  cases c with
  | addParameter fresh name expression =>
    exact numeric.changeParameters (.add fresh name expression s.settings.defaultUnit)
      (ok_of_toOption accepted)
  | setExpression id expression =>
    exact numeric.changeParameters (.setExpression id expression) (ok_of_toOption accepted)
  | removeParameter id =>
    exact numeric.changeParameters (.remove id) (ok_of_toOption accepted)
  | renameParameter id name takes =>
    obtain ⟨⟨_, _⟩, committed, rfl⟩ := ok_of_map (ok_of_toOption accepted)
    refine numeric.commit committed fun next edited => ?_
    split at edited
    · next renamed =>
      cases edited
      exact (Throughout.present numeric).renameParameter renamed
    · cases edited
  | addStudio fresh =>
    have added : s.addStudio now fresh = .ok t := ok_of_toOption accepted
    obtain ⟨⟨_, _⟩, committed, rfl⟩ := ok_of_map added
    refine numeric.commit committed fun next edited => ?_
    cases edited
    exact (Throughout.present numeric).addStudio fresh _
  | removeStudio id =>
    obtain ⟨⟨_, _⟩, outcome, rfl⟩ := Option.map_eq_some_iff.mp accepted
    refine numeric.commit (ok_of_toOption outcome) fun next edited => ?_
    split at edited
    · next removed =>
      cases edited
      exact (Throughout.present numeric).removeStudio removed
    · cases edited
      exact Throughout.present numeric
  | createSketch id freshSketch fresh plane =>
    refine numeric.changeStudio (ok_of_toOption accepted) fun u kept => ?_
    -- The feature is appended to a studio that has a sketch more, and the same features.
    have drawn (sketches) : Studio.Numeric { u with sketches } := kept
    exact (drawn _).append (by intro d member; cases member) []
  | createExtrude id fresh profile direction depth =>
    exact numeric.create (fun _ _ => rfl) (ok_of_toOption accepted)
  | createRevolve id fresh profile choice angle =>
    exact numeric.create (fun _ _ => rfl) (ok_of_toOption accepted)
  | createFillet id fresh target edges radius =>
    exact numeric.create (fun _ _ => rfl) (ok_of_toOption accepted)
  | createBoolean id fresh operation target tool =>
    refine numeric.changeStudio (ok_of_toOption accepted) fun u kept => ?_
    exact kept.append (by intro d member; cases member) _
  | deleteOp id op =>
    obtain ⟨⟨_, _⟩, outcome, rfl⟩ := Option.map_eq_some_iff.mp accepted
    obtain ⟨⟨deleted, u⟩, tried, same⟩ := ok_of_bind (ok_of_toOption outcome)
    have kept : u.Numeric := by
      refine numeric.tryStudio tried fun v w kept removed => ?_
      obtain ⟨⟨_, _⟩, deleted, rfl⟩ := Option.map_eq_some_iff.mp removed
      exact kept.delete deleted
    cases same
    split <;> exact kept
  | setSuppressed id op suppressed =>
    obtain ⟨⟨_, _⟩, outcome, rfl⟩ := Option.map_eq_some_iff.mp accepted
    refine numeric.tryStudio (ok_of_toOption outcome) fun u v kept updated => ?_
    exact kept.update updated fun _ numeric => numeric
  | setDimension id op index input =>
    obtain ⟨⟨_, _⟩, outcome, rfl⟩ := Option.map_eq_some_iff.mp accepted
    obtain ⟨d, entered, tried⟩ := ok_of_bind (ok_of_toOption outcome)
    have replaced (i : Nat) (old : Dimension) (stored : old.value.isFinite = true) :
        (if i = index then d else old).value.isFinite = true := by
      split
      · exact numeric.enterDimension entered
      · exact stored
    refine numeric.tryStudio tried fun u v kept updated => ?_
    split at updated
    · exact kept.update updated fun _ numeric => numeric.mapDimensions replaced
    · cases updated
  | renameOp id op name =>
    obtain ⟨⟨_, _⟩, outcome, rfl⟩ := Option.map_eq_some_iff.mp accepted
    refine numeric.tryStudio (ok_of_toOption outcome) fun u v kept updated => ?_
    exact kept.update updated fun _ numeric => numeric
  | setCutoff id position =>
    exact numeric.changeStudio (ok_of_toOption accepted) fun u kept => kept
  | rollbackTo id op =>
    obtain ⟨⟨_, _⟩, outcome, rfl⟩ := Option.map_eq_some_iff.mp accepted
    refine numeric.tryStudio (ok_of_toOption outcome) fun u v kept rolled => ?_
    obtain ⟨_, _, rfl⟩ := Option.map_eq_some_iff.mp rolled
    exact kept
  | editSketch id sketch edit =>
    obtain ⟨⟨_, _⟩, outcome, rfl⟩ := Option.map_eq_some_iff.mp accepted
    obtain ⟨u, v, found, edited, rfl⟩ := commitStudio_eq_ok (ok_of_toOption outcome)
    have kept := (Throughout.present numeric).studios u (List.mem_of_find?_eq_some found)
    refine numeric.record ((Throughout.present numeric).setStudio ?_ id)
    dsimp only at edited
    split at edited
    · cases edited
    · split at edited
      · cases edited
      · cases edited
        exact kept
  | undo => exact Throughout.undo numeric accepted
  | redo => exact Throughout.redo numeric accepted

theorem apply (numeric : s.Numeric) (now : Timestamp) (c : Command) :
    (c.apply s now).Numeric := by
  unfold Command.apply
  cases accepted : c.run? s now with
  | none => exact numeric
  | some t => exact numeric.run? accepted

theorem run (numeric : s.Numeric) (commands : List (Timestamp × Command)) :
    (commands.foldl (fun s c => c.2.apply s c.1) s).Numeric := by
  induction commands generalizing s with
  | nil => exact numeric
  | cons c rest ih => exact ih (numeric.apply c.1 c.2)

end Numeric

/-- Whatever commands a session is given, in all its snapshots the values of the parameters are
finite, the dimensions store finite numbers and stand for finite numbers, and the plans of the
studios hold no others. -/
theorem numbers_finite (first : StudioId) (settings : Settings)
    (commands : List (Timestamp × Command)) :
    ∀ d ∈ (after first settings commands).history.timeline.snapshots,
      (∀ p ∈ d.params.list, p.value.isFinite = true) ∧
      ∀ t ∈ d.studios,
        (∀ id node, t.nodes.get? id = some node → ∀ dim ∈ node.op.feature.dimensions,
          dim.value.isFinite = true ∧ (dim.resolve d.params).isFinite = true) ∧
        ∀ planned ∈ t.plan d.params, ∀ x, planned.feature.number? = some x →
          x.isFinite = true := by
  intro d member
  have start : (start (.new first) settings).Numeric :=
    throughout_start (Document.new_numeric first) settings
  have numeric : d.Numeric := start.run commands d member
  refine ⟨numeric.params, fun t listed => ⟨?_, ?_⟩⟩
  · intro id node found dim has
    have stored := numeric.studios t listed id node found dim has
    exact ⟨stored, Dimension.resolve_isFinite stored numeric.params⟩
  · intro planned there x number
    exact (numeric.studios t listed).plan numeric.params there number

def overflowing : List (Timestamp × Command) :=
  [(⟨0, 0⟩, .addParameter (Id.ofNat 1) "big" "1e300 * 1e300"),
    (⟨1, 0⟩, .createSketch (Id.ofNat 1) (Id.ofNat 10) (Id.ofNat 2) none),
    (⟨2, 0⟩, .createExtrude (Id.ofNat 1) (Id.ofNat 3) (.sketch (Id.ofNat 10)) .positive
      "1e300 * 1e300"),
    (⟨3, 0⟩, .setDimension (Id.ofNat 1) (Id.ofNat 3) 0 "inf"),
    (⟨4, 0⟩, .createFillet (Id.ofNat 1) (Id.ofNat 4) (Id.ofNat 3) [0] "1e999"),
    (⟨5, 0⟩, .createFillet (Id.ofNat 1) (Id.ofNat 5) (Id.ofNat 3) [0] "big"),
    (⟨6, 0⟩, .removeParameter (Id.ofNat 1)), (⟨7, 0⟩, .undo)]

theorem numbers_finite_overflowing :
    let s := after (Id.ofNat 1) .standard overflowing
    (s.history.past.length, s.history.future.length) = (5, 1) ∧
    s.document.params.list.map (·.expression) = ["1e300 * 1e300"] ∧
    s.document.firstStudio.nodes.values.flatMap (fun node =>
      node.op.feature.dimensions.map (·.expression)) = [some "inf", none] ∧
    ∀ d ∈ s.history.timeline.snapshots, (∀ p ∈ d.params.list, p.value.isFinite = true) ∧
      ∀ t ∈ d.studios, ∀ planned ∈ t.plan d.params, ∀ x, planned.feature.number? = some x →
        x.isFinite = true := by
  intro s
  refine ⟨by decide +kernel, by decide +kernel, by decide +kernel, fun d member => ?_⟩
  obtain ⟨params, studios⟩ := numbers_finite (Id.ofNat 1) .standard overflowing d member
  exact ⟨params, fun t listed => (studios t listed).2⟩

end Session

end Parametric
