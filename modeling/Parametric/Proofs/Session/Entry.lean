import Parametric.Proofs.Dimension.Entry
import Parametric.Proofs.Document.Equality
import Parametric.Proofs.Feature.Plan
import Parametric.Proofs.Session.Links
import Parametric.Proofs.Session.Numbers
import Parametric.Proofs.Session.Parameters
/-! What a session does with the text of a dimension that is entered again.

The session enters the text as if there were no dimension before. This makes no difference to a
dimension whose number something gives. A formula that fails has its last number from the dimension
before, and there is none.
-/

set_option autoImplicit false

namespace Parametric

/-! ## Documents with one studio changed -/

namespace Document

variable {d : Document} {id other : StudioId} {t u : Studio}

theorem id_of_studio? (found : d.studio? id = some t) : t.id = id := by
  simpa using List.find?_some found

theorem find?_replaceFirst {studios : List Studio}
    (found : studios.find? (·.id = id) = some t) (same : u.id = id) :
    (replaceFirst id u studios).find? (·.id = other) =
      if other = id then some u else studios.find? (·.id = other) := by
  induction studios with
  | nil => cases found
  | cons first rest ih =>
    rw [replaceFirst]
    by_cases here : first.id = id
    · rw [if_pos here, List.find?_cons, List.find?_cons, same, here]
      split_ifs with asked
      · rw [asked, decide_eq_true rfl]
      · rw [decide_eq_false (Ne.symm asked)]
    · rw [List.find?_cons, decide_eq_false here] at found
      rw [if_neg here, List.find?_cons, List.find?_cons, ih found]
      by_cases this : first.id = other
      · rw [decide_eq_true this]
        exact (if_neg (this ▸ here)).symm
      · rw [decide_eq_false this]

theorem studio?_setStudio (found : d.studio? id = some t) (same : u.id = id) :
    (d.setStudio id u).studio? other = if other = id then some u else d.studio? other :=
  find?_replaceFirst found same

theorem plan?_setStudio (found : d.studio? id = some t) (same : u.id = id) :
    (d.setStudio id u).plan? other =
      if other = id then some (u.plan d.params) else d.plan? other := by
  unfold plan?
  rw [studio?_setStudio found same]
  split <;> rfl

theorem studio?_mapStudios {change : Studio → Studio} (kept : ∀ t, (change t).id = t.id) :
    (d.mapStudios change).studio? id = (d.studio? id).map change := by
  unfold studio? mapStudios
  rw [List.find?_map]
  simp only [Function.comp_def, kept]

theorem plan?_stamp (now : Timestamp) (before : Document) :
    (Session.stamp now before d).plan? id = d.plan? id := by
  unfold plan? Session.stamp
  rw [studio?_mapStudios fun t => by split <;> rfl, Option.map_map]
  refine Option.map_congr fun t _ => ?_
  dsimp only [Function.comp_apply]
  split <;> rfl

theorem studio?_withoutZeroSigns :
    (withoutZeroSigns d).studio? id = (d.studio? id).map withoutZeroSigns :=
  studio?_mapStudios (d := d) fun _ => rfl

def dimension? (d : Document) (studio : StudioId) (op : OpId) (index : Nat) : Option Dimension :=
  (d.studio? studio).bind fun t => (t.op? op).bind fun o => o.feature.dimensions[index]?

theorem dimension?_eq_some {studio : StudioId} {op : OpId} {index : Nat} {dim : Dimension} :
    d.dimension? studio op index = some dim ↔ ∃ t node, d.studio? studio = some t ∧
      t.nodes.get? op = some node ∧ node.op.feature.dimensions[index]? = some dim := by
  simp [dimension?, Option.bind_eq_some_iff, Studio.op?]

theorem dimension?_withoutZeroSigns {studio : StudioId} {op : OpId} {index : Nat} :
    (withoutZeroSigns d).dimension? studio op index =
      (d.dimension? studio op index).map withoutZeroSigns := by
  have features (feature : Feature) :
      (withoutZeroSigns feature).dimensions = feature.dimensions.map withoutZeroSigns := by
    cases feature <;> rfl
  have ops (t : Studio) : (withoutZeroSigns t).op? op =
      (t.op? op).map fun o => { o with feature := withoutZeroSigns o.feature } := by
    unfold Studio.op?
    rw [Option.map_map]
    exact (congrArg _ (SortedMap.get?_map _ _ op)).trans (Option.map_map ..)
  unfold dimension?
  rw [studio?_withoutZeroSigns]
  cases d.studio? studio with
  | none => rfl
  | some t =>
    rw [Option.map_some, Option.bind_some, Option.bind_some, ops]
    cases t.op? op with
    | none => rfl
    | some o =>
      rw [Option.map_some, Option.bind_some, Option.bind_some, features, List.getElem?_map]

section

variable {op : OpId} {node : Node} {dim : Dimension} (found : d.studio? id = some t)
  (ids : ∀ id node, t.nodes.get? id = some node → node.op.id = id)
  (there : t.nodes.get? op = some node) (only : node.op.feature.dimensions = [dim])
include found ids there only

theorem plan?_renumber (other : StudioId) : ((d.plan? other).map fun plan =>
    if other = id then renumber op (dim.resolve d.params) plan else plan) = d.plan? other := by
  split
  · next same =>
    rw [same, plan?, found]
    exact congrArg some (Studio.renumber_resolve ids there only)
  · exact Option.map_id'

variable {change : Nat → Dimension → Dimension}
  (updated : t.update? op (·.mapDimensions change) = some u)
include updated

omit found ids there only in
theorem id_update : u.id = t.id := by
  obtain ⟨_, _, _, rfl⟩ := Studio.update?_eq_some updated
  rfl

/-- A changed dimension shows in the plan of its studio and in no other one. -/
theorem plan?_update (other : StudioId) :
    (d.setStudio id u).plan? other = (d.plan? other).map fun plan =>
      if other = id then renumber op ((change 0 dim).resolve d.params) plan else plan := by
  rw [plan?_setStudio found ((id_update updated).trans (id_of_studio? found))]
  split
  · next asked =>
    rw [asked, plan?, found, Studio.plan_update ids there only updated]
    rfl
  · exact Option.map_id'.symm

omit ids in
theorem dimension?_update :
    (d.setStudio id u).dimension? id op 0 = some (change 0 dim) := by
  have same := (id_update updated).trans (id_of_studio? found)
  obtain ⟨_, lookup, _, rfl⟩ := Studio.update?_eq_some updated
  rw [there] at lookup
  cases lookup
  refine dimension?_eq_some.mpr ⟨_, _, (studio?_setStudio found same).trans (if_pos rfl),
    SortedMap.get?_insert_self .., ?_⟩
  rw [Op.mapDimensions, Feature.dimensions_mapDimensions, only]
  rfl

end

/-- Documents that count as equal store the same number for a dimension, but for the sign of a
zero. -/
theorem value_of_alike {next : Document} (alike : Alike next d) {studio : StudioId} {op : OpId}
    {index : Nat} {before after : Dimension} (old : d.dimension? studio op index = some before)
    (new : next.dimension? studio op index = some after) :
    withoutZeroSign after.value = withoutZeroSign before.value := by
  have same := congrArg (fun other : Document => other.dimension? studio op index) alike.2.2
  rw [dimension?_withoutZeroSigns, dimension?_withoutZeroSigns, old, new] at same
  exact congrArg Dimension.value (Option.some.inj same)

end Document

namespace Session

variable {s next : Session} {now : Timestamp} {studio : StudioId} {op : OpId} {index : Nat}
  {d entered : Dimension} {t u : Studio} {node : Node} {text : String} {answer : Bool}

theorem tryStudio_of_some {change? : Studio → Option Studio}
    (found : s.document.studio? studio = some t) (applied : change? t = some u) :
    s.tryStudio now studio change? =
      .ok (true, s.record now (s.document.setStudio studio u)) := by
  unfold tryStudio commitStudio commit
  dsimp only
  rw [found]
  dsimp only
  rw [applied]
  rfl

theorem setDimension_eq_ok (found : s.document.studio? studio = some t)
    (there : t.nodes.get? op = some node) (named : node.op.id = op)
    (listed : node.op.feature.dimensions[index]? = some d)
    (accepted : s.setDimension now studio op index text = .ok (answer, next)) :
    answer = true ∧ ∃ entered u, Dimension.enter default text s.document.params = .ok entered ∧
      t.update? op (·.mapDimensions fun i old => if i = index then entered else old) = some u ∧
      next = s.record now (s.document.setStudio studio u) := by
  obtain ⟨entered, enters, tried⟩ := ok_of_bind accepted
  obtain ⟨u, updated⟩ : ∃ u, t.update? op
      (·.mapDimensions fun i old => if i = index then entered else old) = some u := by
    unfold Studio.update?
    rw [there]
    exact ⟨_, if_pos named⟩
  have inside : ((t.op? op).any fun o => index < o.feature.dimensions.length) = true := by
    rw [Studio.op?, there]
    exact decide_eq_true (List.getElem?_eq_some_iff.mp listed).1
  rw [tryStudio_of_some found (if_pos inside |>.trans updated)] at tried
  cases tried
  refine ⟨rfl, entered, u, ?_, updated, rfl⟩
  unfold enterDimension at enters
  split at enters
  · next stands =>
    cases enters
    exact stands
  · cases enters

theorem plan?_record {edited : Document} {id : StudioId} :
    (s.record now edited).document.plan? id =
      if edited == s.document then s.document.plan? id else edited.plan? id := by
  rw [record_document]
  split
  · rfl
  · exact Document.plan?_stamp now s.document

/-- The text that a dimension shows is entered again, after any commands. The plans of all studios
stay as they are, bit for bit, unless nothing but a formula drives the dimension and it fails: then
the number that was in use is lost, and a zero takes its place in the plan. -/
theorem setDimension_sourceText {first : StudioId} {settings : Settings}
    {commands : List (Timestamp × Command)}
    (fresh : FreshFrom [⟨.studio, first⟩] (commands.map (·.2)))
    (run : after first settings commands = s)
    (shown : s.document.dimension? studio op index = some d)
    (accepted : s.setDimension now studio op index (d.sourceText s.document.params) =
      .ok (answer, next)) :
    answer = true ∧
    (¬ d.Fails s.document.params → ∀ id, next.document.plan? id = s.document.plan? id) ∧
    (d.Fails s.document.params → ∃ zero : Float, (zero == 0.0) = true ∧ ∀ id,
      next.document.plan? id = (s.document.plan? id).map fun plan =>
        if id = studio then renumber op zero plan else plan) := by
  obtain ⟨made, sound⟩ : ∃ made, s.document.params.Sound made := run ▸ sound_after fresh
  obtain ⟨mentioned, linked⟩ : ∃ mentioned, ∀ t ∈ s.document.studios, t.Linked mentioned :=
    run ▸ Studio.linked_after fresh
  have numeric : s.document.Numeric := by
    subst run
    exact (Numeric.run (throughout_start (Document.new_numeric first) settings) commands).present
  obtain ⟨t, node, found, there, listed⟩ := Document.dimension?_eq_some.mp shown
  have member := List.mem_of_find?_eq_some found
  have ids := (linked t member).tree.ids
  have stored := numeric.studios t member op node there d (List.mem_of_getElem? listed)
  obtain ⟨rfl, entered, u, enters, updated, rfl⟩ :=
    setDimension_eq_ok found there (ids op node there) listed accepted
  obtain ⟨only, rfl⟩ := Feature.dimensions_of_getElem? listed
  have updates := Document.plan?_update found ids there only updated
  have keeps := Document.plan?_renumber found ids there only
  obtain ⟨given, lost⟩ := Dimension.resolve_enter_over sound.names sound.ids sound.valid
    sound.finite stored enters
  refine ⟨rfl, fun holds id => ?_, fun fails => ?_⟩
  · rw [plan?_record, updates id, if_pos rfl, given holds, keeps id, ite_self]
  by_cases same : (s.document.setStudio studio u == s.document) = true
  · -- The edit is not recorded, since the dimension stores a zero already.
    have alike := Document.value_of_alike (beq_iff_alike.mp same) shown
      (Document.dimension?_update found there only updated)
    rw [if_pos rfl, Dimension.value_of_enter sound.ids enters, lost fails] at alike
    have zero : (d.value == 0.0) = true :=
      float_beq_iff.mpr ⟨isNaN_of_isFinite _ stored, by decide, alike.symm⟩
    refine ⟨d.value, zero, fun id => ?_⟩
    rw [plan?_record, if_pos same, ← Dimension.resolve_of_fails fails, keeps id]
  · refine ⟨0.0, by decide, fun id => ?_⟩
    rw [plan?_record, if_neg same, updates id, if_pos rfl, lost fails]
    rfl

def brokenDepth : List (Timestamp × Command) :=
  [(⟨0, 0⟩, .addParameter (Id.ofNat 1) "w" "5"),
    (⟨1, 0⟩, .addParameter (Id.ofNat 2) "r" "1"),
    (⟨2, 0⟩, .createSketch (Id.ofNat 1) (Id.ofNat 10) (Id.ofNat 3) none),
    (⟨3, 0⟩, .createExtrude (Id.ofNat 1) (Id.ofNat 4) (.sketch (Id.ofNat 10)) .positive "w*2"),
    (⟨4, 0⟩, .createFillet (Id.ofNat 1) (Id.ofNat 5) (Id.ofNat 4) [0] "r/4"),
    (⟨5, 0⟩, .removeParameter (Id.ofNat 1))]

theorem setDimension_sourceText_brokenDepth :
    let s := after (Id.ofNat 1) .standard brokenDepth
    let radius : Dimension := ⟨0.25, some "r/4", none⟩
    let depth : Dimension := ⟨10.0, some "w*2", none⟩
    ¬ radius.Fails s.document.params ∧ depth.Fails s.document.params ∧
    (∃ next, s.setDimension ⟨6, 0⟩ (Id.ofNat 1) (Id.ofNat 5) 0 "r/4" = .ok (true, next) ∧
      next.document.plan? (Id.ofNat 1) = s.document.plan? (Id.ofNat 1)) ∧
    ∃ next zero, s.setDimension ⟨6, 0⟩ (Id.ofNat 1) (Id.ofNat 4) 0 "w*2" = .ok (true, next) ∧
      (zero == 0.0) = true ∧ next.document.plan? (Id.ofNat 1) =
        (s.document.plan? (Id.ofNat 1)).map (renumber (Id.ofNat 4) zero) := by
  intro s radius depth
  have fresh : FreshFrom [⟨.studio, Id.ofNat 1⟩] (brokenDepth.map (·.2)) := by decide +kernel
  have holds : ¬ radius.Fails s.document.params := by decide +kernel
  have fails : depth.Fails s.document.params := by decide +kernel
  refine ⟨holds, fails, ?_, ?_⟩
  · obtain ⟨⟨answer, next⟩, accepted⟩ := ok_of_isOk
      (x := s.setDimension ⟨6, 0⟩ (Id.ofNat 1) (Id.ofNat 5) 0 (radius.sourceText s.document.params))
      (by decide +kernel)
    obtain ⟨rfl, same, -⟩ := setDimension_sourceText fresh rfl (by decide +kernel) accepted
    exact ⟨next, accepted, same holds (Id.ofNat 1)⟩
  · obtain ⟨⟨answer, next⟩, accepted⟩ := ok_of_isOk
      (x := s.setDimension ⟨6, 0⟩ (Id.ofNat 1) (Id.ofNat 4) 0 (depth.sourceText s.document.params))
      (by decide +kernel)
    obtain ⟨rfl, -, lost⟩ := setDimension_sourceText fresh rfl (by decide +kernel) accepted
    obtain ⟨zero, isZero, plans⟩ := lost fails
    exact ⟨next, zero, accepted, isZero, plans (Id.ofNat 1)⟩

/-- The number of the depth is 10 before its text is entered again, and 0 after. -/
theorem brokenDepth_lost :
    let s := after (Id.ofNat 1) .standard brokenDepth
    let numbers (d : Document) := (d.plan? (Id.ofNat 1)).map (·.map (·.feature.number?))
    FreshFrom [⟨.studio, Id.ofNat 1⟩] (brokenDepth.map (·.2)) ∧
    (∃ depth, s.document.dimension? (Id.ofNat 1) (Id.ofNat 4) 0 = some depth ∧
      depth.sourceText s.document.params = "w*2") ∧
    numbers s.document = some [none, some 10.0, some 0.25] ∧
    (s.setDimension ⟨6, 0⟩ (Id.ofNat 1) (Id.ofNat 4) 0 "w*2").map
      (fun o => (o.1, numbers o.2.document)) = .ok (true, some [none, some 0.0, some 0.25]) := by
  refine ⟨by decide +kernel, ⟨⟨10.0, some "w*2", none⟩, by decide +kernel, by decide +kernel⟩,
    by decide +kernel, by decide +kernel⟩

end Session

end Parametric
