import Parametric.Proofs.Document.Edit
import Parametric.Proofs.History
import Parametric.Session
/-! Runs of a session, and what every snapshot of a run has in common.

A command performs edits of studios, adds or removes studios, or moves through
the history. So what new studios have and edits keep, the studios of all
snapshots have after any run.
-/

set_option autoImplicit false

namespace Parametric

abbrev AnyId := Σ kind, Id kind

namespace Session

inductive Command where
  | addParameter (fresh : ParameterId) (name expression : String)
  | setExpression (id : ParameterId) (expression : String)
  | renameParameter (id : ParameterId) (name : String)
      (takes : String → Bool := Formula.anyWord)
  | removeParameter (id : ParameterId)
  | addStudio (fresh : StudioId)
  | removeStudio (id : StudioId)
  | createSketch (studio : StudioId) (freshSketch : SketchId) (fresh : OpId)
      (plane : Option PlaneId)
  | createExtrude (studio : StudioId) (fresh : OpId) (profile : Profile)
      (direction : ExtrudeDirection) (depth : String)
  | createRevolve (studio : StudioId) (fresh : OpId) (profile : Profile) (choice : AxisChoice)
      (angle : String)
  | createFillet (studio : StudioId) (fresh target : OpId) (edges : List Nat) (radius : String)
  | createBoolean (studio : StudioId) (fresh : OpId) (operation : BooleanOperation)
      (target tool : OpId)
  | deleteOp (studio : StudioId) (op : OpId)
  | setSuppressed (studio : StudioId) (op : OpId) (suppressed : Bool)
  | setDimension (studio : StudioId) (op : OpId) (index : Nat) (input : String)
  | renameOp (studio : StudioId) (op : OpId) (name : String)
  | setCutoff (studio : StudioId) (position : Option Nat)
  | rollbackTo (studio : StudioId) (op : OpId)
  | editSketch (studio : StudioId) (sketch : SketchId) (edit : Sketch → Except SketchError Sketch)
  | undo
  | redo

namespace Command

def run? (s : Session) (now : Timestamp) : Command → Option Session
  | addParameter fresh name expression => (s.addParameter now fresh name expression).toOption
  | setExpression id expression => (s.setExpression now id expression).toOption
  | renameParameter id name takes => (s.renameParameter now id name takes).toOption
  | removeParameter id => (s.removeParameter now id).toOption
  | addStudio fresh => (s.addStudio now fresh).toOption
  | removeStudio id => (s.removeStudio now id).toOption.map (·.2)
  | createSketch studio freshSketch fresh plane =>
    (s.createSketch now studio freshSketch fresh plane).toOption
  | createExtrude studio fresh profile direction depth =>
    (s.createExtrude now studio fresh profile direction depth).toOption
  | createRevolve studio fresh profile choice angle =>
    (s.createRevolve now studio fresh profile choice angle).toOption
  | createFillet studio fresh target edges radius =>
    (s.createFillet now studio fresh target edges radius).toOption
  | createBoolean studio fresh operation target tool =>
    (s.createBoolean now studio fresh operation target tool).toOption
  | deleteOp studio op => (s.deleteOp now studio op).toOption.map (·.2)
  | setSuppressed studio op suppressed =>
    (s.setSuppressed now studio op suppressed).toOption.map (·.2)
  | setDimension studio op index input =>
    (s.setDimension now studio op index input).toOption.map (·.2)
  | renameOp studio op name => (s.renameOp now studio op name).toOption.map (·.2)
  | setCutoff studio position => (s.setCutoff now studio position).toOption
  | rollbackTo studio op => (s.rollbackTo now studio op).toOption.map (·.2)
  | editSketch studio sketch edit =>
    (s.editSketch now studio sketch fun t => (edit t).map ((), ·)).toOption.map (·.2)
  | undo => s.undo?
  | redo => s.redo?

def apply (s : Session) (now : Timestamp) (c : Command) : Session :=
  (c.run? s now).getD s

def makes : Command → List AnyId
  | addParameter fresh _ _ => [⟨.parameter, fresh⟩]
  | addStudio fresh => [⟨.studio, fresh⟩]
  | createSketch _ freshSketch fresh _ => [⟨.sketch, freshSketch⟩, ⟨.op, fresh⟩]
  | createExtrude _ fresh _ _ _ | createRevolve _ fresh _ _ _ | createFillet _ fresh _ _ _
  | createBoolean _ fresh _ _ _ => [⟨.op, fresh⟩]
  | _ => []

def profileId : Profile → AnyId
  | .sketch id => ⟨.sketch, id⟩
  | .face f => ⟨.op, f.op⟩

/-- The identifiers that a command names as its arguments. -/
def names : Command → List AnyId
  | setExpression id _ | renameParameter id _ _ | removeParameter id => [⟨.parameter, id⟩]
  | removeStudio id => [⟨.studio, id⟩]
  | createSketch studio _ _ plane => ⟨.studio, studio⟩ :: plane.toList.map (⟨.plane, ·⟩)
  | createExtrude studio _ profile _ _ | createRevolve studio _ profile _ _ =>
    [⟨.studio, studio⟩, profileId profile]
  | createFillet studio _ target _ _ => [⟨.studio, studio⟩, ⟨.op, target⟩]
  | createBoolean studio _ _ target tool => [⟨.studio, studio⟩, ⟨.op, target⟩, ⟨.op, tool⟩]
  | deleteOp studio op | setSuppressed studio op _ | setDimension studio op _ _
  | renameOp studio op _ | rollbackTo studio op => [⟨.studio, studio⟩, ⟨.op, op⟩]
  | setCutoff studio _ => [⟨.studio, studio⟩]
  | editSketch studio sketch _ => [⟨.studio, studio⟩, ⟨.sketch, sketch⟩]
  | addParameter .. | addStudio _ | undo | redo => []

/-- What a command may do to a studio: create a feature, delete one, or change what does not
show in the feature tree. -/
inductive Performs : Command → Studio.Edit → Prop where
  | createSketch (studio : StudioId) (freshSketch : SketchId) (fresh : OpId) (name : String)
      (given plane : Option PlaneId) :
      Performs (.createSketch studio freshSketch fresh given)
        (.addSketch freshSketch fresh name plane)
  | createExtrude (studio : StudioId) (fresh : OpId) (name : String) (profile : Profile)
      (direction : ExtrudeDirection) (input : String) (depth : Dimension) :
      Performs (.createExtrude studio fresh profile direction input)
        (.addExtrude fresh name profile direction depth)
  | createRevolve (studio : StudioId) (fresh : OpId) (name : String) (profile : Profile)
      (choice : AxisChoice) (input : String) (angle : Dimension) :
      Performs (.createRevolve studio fresh profile choice input)
        (.addRevolve fresh name profile choice angle)
  | createFillet (studio : StudioId) (fresh target : OpId) (name : String) (edges : List Nat)
      (input : String) (radius : Dimension) :
      Performs (.createFillet studio fresh target edges input)
        (.addFillet fresh name target edges radius)
  | createBoolean (studio : StudioId) (fresh : OpId) (name : String)
      (operation : BooleanOperation) (target tool : OpId) :
      Performs (.createBoolean studio fresh operation target tool)
        (.addBoolean fresh name operation target tool)
  | deleteOp (studio : StudioId) (op : OpId) : Performs (.deleteOp studio op) (.delete op)
  | setSuppressed (studio : StudioId) (op : OpId) (suppressed : Bool) :
      Performs (.setSuppressed studio op suppressed) (.setSuppressed op suppressed)
  | setDimension (studio : StudioId) (op : OpId) (index : Nat) (input : String)
      (change : Nat → Dimension → Dimension) :
      Performs (.setDimension studio op index input) (.update op (·.mapDimensions change))
  | renameOp (studio : StudioId) (op : OpId) (name : String) :
      Performs (.renameOp studio op name) (.update op fun o => { o with name })
  | setCutoff (studio : StudioId) (position : Option Nat) :
      Performs (.setCutoff studio position) (.setCutoff position)
  | rollbackTo (studio : StudioId) (op : OpId) :
      Performs (.rollbackTo studio op) (.rollbackTo op)
  | editSketch (studio : StudioId) (sketch : SketchId)
      (edit : Sketch → Except SketchError Sketch) :
      Performs (.editSketch studio sketch edit)
        (.editSketch sketch fun t => (edit t).toOption.getD t)
  | renameParameter (id : ParameterId) (name old : String) (takes : String → Bool) :
      Performs (.renameParameter id name takes) (.renameParameter old name takes)

inductive Alters : Command → Parameters.Edit → Prop where
  | addParameter (fresh : ParameterId) (name expression : String) (unit : Option String) :
      Alters (.addParameter fresh name expression) (.add fresh name expression unit)
  | setExpression (id : ParameterId) (expression : String) :
      Alters (.setExpression id expression) (.setExpression id expression)
  | removeParameter (id : ParameterId) : Alters (.removeParameter id) (.remove id)

end Command

/-- Each identifier that a command makes is new: no command before it has made or named it,
and it does not name it itself. -/
def FreshFrom (mentioned : List AnyId) : List Command → Prop
  | [] => True
  | c :: rest =>
    (∀ id ∈ c.makes, id ∉ c.names ++ mentioned) ∧ FreshFrom (c.makes ++ c.names ++ mentioned) rest

def decideFreshFrom (mentioned : List AnyId) :
    (commands : List Command) → Decidable (FreshFrom mentioned commands)
  | [] => .isTrue trivial
  | c :: rest =>
    have := decideFreshFrom (c.makes ++ c.names ++ mentioned) rest
    inferInstanceAs (Decidable (_ ∧ _))

instance (mentioned : List AnyId) (commands : List Command) :
    Decidable (FreshFrom mentioned commands) :=
  decideFreshFrom mentioned commands

def after (first : StudioId) (settings : Settings) (commands : List (Timestamp × Command)) :
    Session :=
  commands.foldl (fun s c => c.2.apply s c.1) (start (.new first) settings)

/-! ## What a command leads to -/

/-- What a command makes of a document: an edit of one studio, of the list of studios or of the
parameters. -/
inductive Command.Edits (d : Document) : Command → Document → Prop where
  | studio {c : Command} {e : Studio.Edit} (id : StudioId) (performs : c.Performs e) :
      Edits d c (d.changeStudio id e.apply)
  | parameters {c : Command} {e : Parameters.Edit} {params : Parameters} (alters : c.Alters e)
      (accepted : e.apply d.params = .ok params) : Edits d c { d with params }
  | renameParameter {id : ParameterId} {name : String} {takes : String → Bool} {next : Document}
      (renamed : d.renameParameter id name takes = .ok next) :
      Edits d (.renameParameter id name takes) next
  | addStudio (fresh : StudioId) (name : String) :
      Edits d (.addStudio fresh) (d.addStudio fresh name)
  | removeStudio {id : StudioId} {t : Studio} {next : Document}
      (removed : d.removeStudio? id = some (t, next)) : Edits d (.removeStudio id) next

def Command.selects : Command → Selection → Selection
  | .deleteOp _ op, selection => selection.deselect op
  | _, selection => selection

/-- The sessions that an accepted command leads to. -/
inductive Command.Leads (s : Session) (now : Timestamp) : Command → Session → Prop where
  | edited {c : Command} {next : Document} (edits : c.Edits s.document next) :
      Leads s now c { s.record now next with selection := c.selects s.selection }
  /-- What the command was to edit is not there, and the document is committed as it is. -/
  | unchanged {c : Command} : Leads s now c (s.record now s.document)
  | undo {t : Session} (undone : s.undo? = some t) : Leads s now .undo t
  | redo {t : Session} (redone : s.redo? = some t) : Leads s now .redo t

section

variable {s t : Session} {now : Timestamp} {c : Command} {next : Document}

@[simp] theorem record_selection : (s.record now next).selection = s.selection := by
  unfold record
  split <;> rfl

theorem record_document : (s.record now next).document =
    if next == s.document then s.document else stamp now s.document next := by
  unfold record History.push History.trim
  split
  · rfl
  · split <;> rfl

theorem commit_eq_ok {α : Type} {edit : Document → Except SessionError (α × Document)} {answer : α}
    (committed : s.commit now edit = .ok (answer, t)) :
    ∃ next, edit s.document = .ok (answer, next) ∧ t = s.record now next := by
  unfold commit at committed
  cases edited : edit s.document with
  | error e => rw [edited] at committed; cases committed
  | ok outcome =>
    rw [edited] at committed
    cases committed
    exact ⟨outcome.2, rfl, rfl⟩

theorem commitStudio_eq_ok {α : Type} {id : StudioId}
    {edit : Studio → Except SessionError (α × Studio)} {answer : α}
    (committed : s.commitStudio now id edit = .ok (answer, t)) :
    ∃ studio changed, s.document.studio? id = some studio ∧ edit studio = .ok (answer, changed) ∧
      t = s.record now (s.document.setStudio id changed) := by
  obtain ⟨document, edited, rfl⟩ := commit_eq_ok committed
  dsimp only at edited
  split at edited
  · cases edited
  · next studio found =>
    obtain ⟨⟨_, changed⟩, outcome, same⟩ := ok_of_bind edited
    cases same
    exact ⟨studio, changed, found, outcome, rfl⟩

theorem changeStudio_eq_ok {id : StudioId} {change : Studio → Studio}
    (changed : s.changeStudio now id change = .ok t) :
    ∃ studio, s.document.studio? id = some studio ∧
      t = s.record now (s.document.setStudio id (change studio)) := by
  obtain ⟨⟨_, _⟩, committed, rfl⟩ := ok_of_map changed
  obtain ⟨studio, _, found, outcome, recorded⟩ := commitStudio_eq_ok committed
  cases outcome
  exact ⟨studio, found, recorded⟩

theorem tryStudio_eq_ok {id : StudioId} {change? : Studio → Option Studio} {answer : Bool}
    (tried : s.tryStudio now id change? = .ok (answer, t)) :
    answer = false ∧ t = s.record now s.document ∨
      ∃ studio changed, s.document.studio? id = some studio ∧ change? studio = some changed ∧
        answer = true ∧ t = s.record now (s.document.setStudio id changed) := by
  obtain ⟨studio, changed, found, outcome, rfl⟩ := commitStudio_eq_ok tried
  split at outcome
  · next applied =>
    cases outcome
    exact .inr ⟨studio, changed, found, applied, rfl, rfl⟩
  · cases outcome
    rw [Document.setStudio_self found]
    exact .inl ⟨rfl, rfl⟩

namespace Command.Leads

theorem recorded (edits : c.Edits s.document next) (selects : c.selects s.selection = s.selection) :
    c.Leads s now (s.record now next) := by
  have kept : (s.record now next).selection = s.selection := record_selection
  have edited : c.Leads s now { s.record now next with selection := c.selects s.selection } :=
    .edited edits
  rwa [selects, ← kept] at edited

theorem studio {e : Studio.Edit} {id : StudioId} {studio changed : Studio}
    (performs : c.Performs e) (found : s.document.studio? id = some studio)
    (applied : e.apply studio = changed) (selects : c.selects s.selection = s.selection) :
    c.Leads s now (s.record now (s.document.setStudio id changed)) := by
  have edits : c.Edits s.document _ := .studio id performs
  rw [Document.changeStudio_of_studio? found applied] at edits
  exact recorded edits selects

/-- A refused edit of a studio gives the studio back, which is what `Edit.apply` does. -/
theorem tried {e : Studio.Edit} {id : StudioId} {change? : Studio → Option Studio} {answer : Bool}
    (performs : c.Performs e)
    (same : ∀ studio changed, change? studio = some changed → e.apply studio = changed)
    (outcome : s.tryStudio now id change? = .ok (answer, t))
    (selects : c.selects s.selection = s.selection) : c.Leads s now t := by
  rcases tryStudio_eq_ok outcome with ⟨_, rfl⟩ | ⟨found, changed, here, applied, _, rfl⟩
  · exact .unchanged
  · exact studio performs here (same found changed applied) selects

theorem parameters {e : Parameters.Edit} (alters : c.Alters e)
    (changed : s.changeParameters now e.apply = .ok t)
    (selects : c.selects s.selection = s.selection) : c.Leads s now t := by
  obtain ⟨⟨_, _⟩, committed, rfl⟩ := ok_of_map changed
  obtain ⟨document, edited, rfl⟩ := commit_eq_ok committed
  split at edited
  · next accepted =>
    cases edited
    exact recorded (.parameters alters accepted) selects
  · cases edited

end Command.Leads

open Command.Leads in
/-- Each accepted command leads where the relation says. -/
theorem Command.run?_leads (accepted : c.run? s now = some t) : c.Leads s now t := by
  cases c with
  | addParameter fresh name expression =>
    exact parameters (.addParameter fresh name expression s.settings.defaultUnit)
      (ok_of_toOption accepted) rfl
  | setExpression id expression =>
    exact parameters (.setExpression id expression) (ok_of_toOption accepted) rfl
  | renameParameter id name takes =>
    obtain ⟨⟨_, _⟩, committed, rfl⟩ := ok_of_map (ok_of_toOption accepted)
    obtain ⟨document, edited, rfl⟩ := commit_eq_ok committed
    split at edited
    · next renamed =>
      cases edited
      exact recorded (.renameParameter renamed) rfl
    · cases edited
  | removeParameter id => exact parameters (.removeParameter id) (ok_of_toOption accepted) rfl
  | addStudio fresh =>
    have added : s.addStudio now fresh = .ok t := ok_of_toOption accepted
    obtain ⟨⟨_, _⟩, committed, rfl⟩ := ok_of_map added
    obtain ⟨document, edited, rfl⟩ := commit_eq_ok committed
    cases edited
    exact recorded (.addStudio fresh _) rfl
  | removeStudio id =>
    obtain ⟨⟨answer, _⟩, outcome, rfl⟩ := Option.map_eq_some_iff.mp accepted
    obtain ⟨document, edited, rfl⟩ := commit_eq_ok (ok_of_toOption outcome)
    split at edited
    · next removed =>
      cases edited
      exact recorded (.removeStudio removed) rfl
    · cases edited
      exact .unchanged
  | createSketch id freshSketch fresh plane =>
    obtain ⟨found, here, rfl⟩ := changeStudio_eq_ok (ok_of_toOption accepted)
    exact studio (.createSketch id freshSketch fresh (found.nextName "Sketch") plane
      (some (plane.getD s.settings.defaultPlane.id))) here rfl rfl
  | createExtrude id fresh profile direction depth =>
    obtain ⟨d, _, created⟩ := ok_of_bind (ok_of_toOption accepted)
    obtain ⟨found, here, rfl⟩ := changeStudio_eq_ok created
    exact studio (.createExtrude id fresh _ profile direction depth d) here rfl rfl
  | createRevolve id fresh profile choice angle =>
    obtain ⟨d, _, created⟩ := ok_of_bind (ok_of_toOption accepted)
    obtain ⟨found, here, rfl⟩ := changeStudio_eq_ok created
    exact studio (.createRevolve id fresh _ profile choice angle d) here rfl rfl
  | createFillet id fresh target edges radius =>
    obtain ⟨d, _, created⟩ := ok_of_bind (ok_of_toOption accepted)
    obtain ⟨found, here, rfl⟩ := changeStudio_eq_ok created
    exact studio (.createFillet id fresh target _ edges radius d) here rfl rfl
  | createBoolean id fresh operation target tool =>
    obtain ⟨found, here, rfl⟩ := changeStudio_eq_ok (ok_of_toOption accepted)
    exact studio (.createBoolean id fresh _ operation target tool) here rfl rfl
  | deleteOp id op =>
    obtain ⟨⟨_, _⟩, outcome, rfl⟩ := Option.map_eq_some_iff.mp accepted
    obtain ⟨⟨deleted, _⟩, tried, same⟩ := ok_of_bind (ok_of_toOption outcome)
    cases same
    rcases tryStudio_eq_ok tried with ⟨rfl, rfl⟩ | ⟨found, changed, here, applied, rfl, rfl⟩
    · exact .unchanged
    · have edits : Command.Edits s.document (.deleteOp id op) _ := .studio id (.deleteOp id op)
      have deletes : (Studio.Edit.delete op).apply found = changed :=
        congrArg (Option.getD · found) applied
      rw [Document.changeStudio_of_studio? here deletes] at edits
      rw [if_pos rfl, record_selection]
      exact .edited edits
  | setSuppressed id op suppressed =>
    obtain ⟨⟨_, _⟩, outcome, rfl⟩ := Option.map_eq_some_iff.mp accepted
    refine tried (.setSuppressed id op suppressed) (fun u changed applied => ?_)
      (ok_of_toOption outcome) rfl
    exact congrArg (Option.getD · u) applied
  | setDimension id op index input =>
    obtain ⟨⟨_, _⟩, outcome, rfl⟩ := Option.map_eq_some_iff.mp accepted
    obtain ⟨d, _, outcome⟩ := ok_of_bind (ok_of_toOption outcome)
    refine tried (.setDimension id op index input fun i old => if i = index then d else old)
      (fun u changed applied => ?_) outcome rfl
    split at applied
    · exact congrArg (Option.getD · u) applied
    · cases applied
  | renameOp id op name =>
    obtain ⟨⟨_, _⟩, outcome, rfl⟩ := Option.map_eq_some_iff.mp accepted
    refine tried (.renameOp id op name) (fun u changed applied => ?_) (ok_of_toOption outcome) rfl
    exact congrArg (Option.getD · u) applied
  | setCutoff id position =>
    obtain ⟨found, here, rfl⟩ := changeStudio_eq_ok (ok_of_toOption accepted)
    exact studio (.setCutoff id position) here rfl rfl
  | rollbackTo id op =>
    obtain ⟨⟨_, _⟩, outcome, rfl⟩ := Option.map_eq_some_iff.mp accepted
    refine tried (.rollbackTo id op) (fun u changed applied => ?_) (ok_of_toOption outcome) rfl
    exact congrArg (Option.getD · u) applied
  | editSketch id sketch edit =>
    obtain ⟨⟨_, _⟩, outcome, rfl⟩ := Option.map_eq_some_iff.mp accepted
    obtain ⟨found, changed, here, applied, rfl⟩ := commitStudio_eq_ok (ok_of_toOption outcome)
    dsimp only at applied
    split at applied
    · cases applied
    · next present held =>
      split at applied
      · cases applied
      · next edited done =>
        cases applied
        obtain ⟨_, accepted, same⟩ := ok_of_map done
        cases same
        refine studio (.editSketch id sketch edit) here ?_ rfl
        rw [Studio.Edit.apply, Studio.editSketch, held]
        dsimp only
        rw [accepted]
        rfl
  | undo => exact .undo accepted
  | redo => exact .redo accepted

end

/-! ## All snapshots -/

/-- The present document has a property, and all that can be returned to. -/
def Throughout (P : Document → Prop) (s : Session) : Prop :=
  ∀ d ∈ s.history.timeline.snapshots, P d

namespace Throughout

variable {P : Document → Prop} {s t : Session} {now : Timestamp}

theorem present (throughout : s.Throughout P) : P s.document :=
  throughout s.document (by simp [History.timeline, document])

theorem undo (throughout : s.Throughout P) (undone : s.undo? = some t) : t.Throughout P := by
  unfold undo? at undone
  split at undone
  · cases undone
    intro d member
    exact throughout d (s.history.snapshots_undo ▸ member)
  · cases undone

theorem redo (throughout : s.Throughout P) (redone : s.redo? = some t) : t.Throughout P := by
  unfold redo? at redone
  split at redone
  · cases redone
    intro d member
    exact throughout d (s.history.snapshots_redo ▸ member)
  · cases redone

theorem record (throughout : s.Throughout P) {next : Document}
    (stamped : P (stamp now s.document next)) : (s.record now next).Throughout P := by
  unfold Session.record
  split
  · exact throughout
  · intro d member
    have among := (s.history.snapshots_push_sublist _).subset member
    rcases List.mem_append.mp among with old | new
    · exact throughout d old
    · exact List.mem_singleton.mp new ▸ stamped

end Throughout

theorem throughout_start {P : Document → Prop} {d : Document} (holds : P d)
    (settings : Settings) : (start d settings).Throughout P := by
  intro other member
  rw [start, History.withLimit_start] at member
  exact List.mem_singleton.mp member ▸ holds

/-! ## Studios of all snapshots -/

structure Everywhere (P : Studio → Prop) (s : Session) : Prop where
  present : ∀ t ∈ s.document.studios, P t
  past : ∀ d ∈ s.history.past, ∀ t ∈ d.studios, P t
  future : ∀ d ∈ s.history.future, ∀ t ∈ d.studios, P t

section

variable {P Q : Studio → Prop} {s : Session} {now : Timestamp}

theorem everywhere_iff : s.Everywhere P ↔ s.Throughout fun d => ∀ t ∈ d.studios, P t := by
  constructor
  · intro everywhere d member
    rcases List.mem_append.mp member with past | rest
    · exact everywhere.past d (List.mem_reverse.mp past)
    · rcases List.mem_cons.mp rest with rfl | future
      · exact everywhere.present
      · exact everywhere.future d future
  · intro throughout
    exact ⟨throughout.present, fun d past => throughout d (by simp [History.timeline, past]),
      fun d future => throughout d (by simp [History.timeline, future])⟩

theorem Everywhere.imp (everywhere : s.Everywhere P) (weaker : ∀ t, P t → Q t) :
    s.Everywhere Q where
  present t member := weaker t (everywhere.present t member)
  past d listed t member := weaker t (everywhere.past d listed t member)
  future d listed t member := weaker t (everywhere.future d listed t member)

theorem Everywhere.undo (everywhere : s.Everywhere P) {t : Session} (undone : s.undo? = some t) :
    t.Everywhere P :=
  everywhere_iff.mpr ((everywhere_iff.mp everywhere).undo undone)

theorem Everywhere.redo (everywhere : s.Everywhere P) {t : Session} (redone : s.redo? = some t) :
    t.Everywhere P :=
  everywhere_iff.mpr ((everywhere_iff.mp everywhere).redo redone)

theorem Everywhere.record (everywhere : s.Everywhere P) (touch : ∀ t, P t → P (t.touch now))
    {next : Document} (all : ∀ t ∈ next.studios, P t) : (s.record now next).Everywhere P := by
  refine everywhere_iff.mpr ((everywhere_iff.mp everywhere).record fun t member => ?_)
  obtain ⟨old, listed, rfl⟩ := List.mem_map.mp member
  split
  · exact all old listed
  · exact touch old (all old listed)

/-- What new studios have, and each edit that a command performs keeps, all studios have after
the command. Those that it does not edit have the weaker property from before. -/
theorem Command.Edits.forall_studios {d next : Document} {c : Command} (edits : c.Edits d next)
    (before : ∀ t ∈ d.studios, P t) (weaker : ∀ t, P t → Q t)
    (new : ∀ fresh name, Q (.new fresh name))
    (performs : ∀ e, c.Performs e → ∀ t, P t → Q (e.apply t)) : ∀ t ∈ next.studios, Q t := by
  have kept : ∀ t ∈ d.studios, Q t := fun t listed => weaker t (before t listed)
  cases edits with
  | studio id performed =>
    unfold Document.changeStudio
    split
    · exact kept
    · next found here =>
      intro t member
      rcases Document.mem_replaceFirst member with rfl | old
      · exact performs _ performed found (before found (List.mem_of_find?_eq_some here))
      · exact kept t old
  | parameters => exact kept
  | @renameParameter id name takes _ renamed =>
    unfold Document.renameParameter at renamed
    split at renamed
    · cases renamed
    · next p found =>
      obtain ⟨params, _, same⟩ := ok_of_bind renamed
      cases same
      intro t member
      obtain ⟨old, listed, rfl⟩ := List.mem_map.mp member
      exact performs _ (.renameParameter id name p.name takes) old (before old listed)
  | addStudio fresh name =>
    intro t member
    rcases List.mem_append.mp member with old | last
    · exact kept t old
    · rw [List.mem_singleton.mp last]
      exact new fresh name
  | @removeStudio id _ _ removed =>
    unfold Document.removeStudio? at removed
    dsimp only at removed
    split at removed
    · cases removed
    · split at removed
      · cases removed
        exact fun t member => kept t (List.mem_of_mem_eraseP member)
      · cases removed

theorem Everywhere.run? (everywhere : s.Everywhere P) (weaker : ∀ t, P t → Q t)
    (touch : ∀ t, Q t → Q (t.touch now)) (new : ∀ fresh name, Q (.new fresh name)) {c : Command}
    (edits : ∀ e, c.Performs e → ∀ t, P t → Q (e.apply t)) {next : Session}
    (accepted : c.run? s now = some next) : next.Everywhere Q := by
  have kept := everywhere.imp weaker
  cases Command.run?_leads accepted with
  | edited edited =>
    have all := edited.forall_studios everywhere.present weaker new edits
    have recorded := kept.record touch all
    -- The selection is no part of the snapshots.
    exact ⟨recorded.present, recorded.past, recorded.future⟩
  | unchanged => exact kept.record touch kept.present
  | undo undone => exact kept.undo undone
  | redo redone => exact kept.redo redone

end

/-! ## Runs -/

/-- A property of studios, given the identifiers mentioned so far, that a session keeps. -/
structure Keeps (P : List AnyId → Studio → Prop) : Prop where
  mono : ∀ {fewer more : List AnyId} {t : Studio}, fewer ⊆ more → P fewer t → P more t
  new : ∀ mentioned fresh name, P mentioned (.new fresh name)
  touch : ∀ mentioned t now, P mentioned t → P mentioned (t.touch now)
  edit : ∀ mentioned (c : Command) e t, c.Performs e →
    (∀ id ∈ c.makes, id ∉ c.names ++ mentioned) → P mentioned t →
      P (c.makes ++ c.names ++ mentioned) (e.apply t)

section

variable {P : List AnyId → Studio → Prop}

theorem Keeps.apply (keeps : Keeps P) {mentioned : List AnyId} {s : Session} {c : Command}
    (everywhere : s.Everywhere (P mentioned)) (fresh : ∀ id ∈ c.makes, id ∉ c.names ++ mentioned)
    (now : Timestamp) : (c.apply s now).Everywhere (P (c.makes ++ c.names ++ mentioned)) := by
  have more : mentioned ⊆ c.makes ++ c.names ++ mentioned := List.subset_append_right _ _
  unfold Command.apply
  cases accepted : c.run? s now with
  | none => exact everywhere.imp fun t => keeps.mono more
  | some next =>
    exact everywhere.run? (fun t => keeps.mono more) (fun t holds => keeps.touch _ t now holds)
      (fun id name => keeps.new _ id name)
      (fun e performs t holds => keeps.edit mentioned c e t performs fresh holds) accepted

theorem Keeps.run (keeps : Keeps P) {mentioned : List AnyId} {s : Session}
    {commands : List (Timestamp × Command)} (everywhere : s.Everywhere (P mentioned))
    (fresh : FreshFrom mentioned (commands.map (·.2))) :
    ∃ all, (commands.foldl (fun s c => c.2.apply s c.1) s).Everywhere (P all) := by
  induction commands generalizing s mentioned with
  | nil => exact ⟨mentioned, everywhere⟩
  | cons c rest ih => exact ih (keeps.apply everywhere fresh.1 c.1) fresh.2

theorem everywhere_start {P : Studio → Prop} {first : StudioId} {settings : Settings}
    (new : ∀ fresh name, P (.new fresh name)) : (start (.new first) settings).Everywhere P :=
  everywhere_iff.mpr <| throughout_start (List.forall_mem_singleton.mpr (new first _)) settings

theorem Keeps.after (keeps : Keeps P) (first : StudioId) (settings : Settings)
    (commands : List (Timestamp × Command))
    (fresh : FreshFrom [⟨.studio, first⟩] (commands.map (·.2))) :
    ∃ all, (after first settings commands).Everywhere (P all) :=
  keeps.run (everywhere_start (keeps.new [⟨.studio, first⟩])) fresh

end

end Session

end Parametric
