import Parametric.Proofs.Session.Run
import Parametric.Proofs.Parameters.Run
/-! The parameters of a session, in every document that can be returned to.

Commands on part studios leave the parameters alone, and the others perform one edit of them, or
rename one along with the dimensions that follow it. So what a run of edits keeps, a session keeps.
-/

set_option autoImplicit false

namespace Parametric

open Parameters (Step)

/-- The parameters are sound, and the identifiers of all that were ever made are mentioned. -/
def Document.SoundParameters (mentioned : List AnyId) (d : Document) : Prop :=
  ∃ made, d.params.Sound made ∧ ∀ id ∈ made, (⟨.parameter, id⟩ : AnyId) ∈ mentioned

namespace Document.SoundParameters

variable {mentioned more : List AnyId} {d next : Document}

theorem new (fresh : StudioId) : (Document.new fresh).SoundParameters mentioned :=
  ⟨[], Parameters.sound_empty, nofun⟩

theorem mono (sound : d.SoundParameters mentioned) (included : mentioned ⊆ more) :
    d.SoundParameters more := by
  obtain ⟨made, sound, known⟩ := sound
  exact ⟨made, sound, fun id member => included (known id member)⟩

theorem of_params (sound : d.SoundParameters mentioned) (same : next.params = d.params) :
    next.SoundParameters mentioned := by
  unfold SoundParameters
  rw [same]
  exact sound

theorem edit (sound : d.SoundParameters mentioned) {e : Parameters.Edit}
    (fresh : ∀ id, e.makes? = some id → (⟨.parameter, id⟩ : AnyId) ∉ mentioned)
    (accepted : e.apply d.params = .ok next.params)
    (included : mentioned ⊆ more)
    (makes : ∀ id, e.makes? = some id → (⟨.parameter, id⟩ : AnyId) ∈ more) :
    next.SoundParameters more := by
  obtain ⟨made, sound, known⟩ := sound
  have new : ∀ id, (Step.edit e).makes? = some id → id ∉ made :=
    fun id here old => fresh id here (known id old)
  have kept := sound.apply new
  have outcome : (Step.edit e).apply d.params = next.params := by
    rw [Step.apply, accepted]
    rfl
  rw [outcome] at kept
  refine ⟨_, kept, fun id member => ?_⟩
  rcases List.mem_append.mp member with new | old
  · exact makes id (Option.mem_toList.mp new)
  · exact included (known id old)

end Document.SoundParameters

namespace Session

variable {mentioned : List AnyId} {d next : Document} {c : Command}

theorem Command.Alters.makes {e : Parameters.Edit} (alters : c.Alters e) {id : ParameterId}
    (made : e.makes? = some id) : (⟨.parameter, id⟩ : AnyId) ∈ c.makes := by
  cases alters with
  | addParameter fresh name expression unit =>
    cases made
    exact List.mem_singleton_self _
  | setExpression | removeParameter => cases made

theorem Command.Edits.soundParameters (edits : c.Edits d next)
    (sound : d.SoundParameters mentioned) (fresh : ∀ id ∈ c.makes, id ∉ c.names ++ mentioned) :
    next.SoundParameters (c.makes ++ c.names ++ mentioned) := by
  have included : mentioned ⊆ c.makes ++ c.names ++ mentioned := List.subset_append_right _ _
  cases edits with
  | studio id performs =>
    refine (sound.mono included).of_params ?_
    unfold Document.changeStudio
    split <;> rfl
  | parameters alters accepted =>
    refine sound.edit (fun id made old => ?_) accepted included fun id made => ?_
    · exact fresh _ (alters.makes made) (List.mem_append_right _ old)
    · exact List.mem_append_left _ (List.mem_append_left _ (alters.makes made))
  | @renameParameter id name takes _ renamed =>
    unfold Document.renameParameter at renamed
    split at renamed
    · cases renamed
    · next p found =>
      obtain ⟨params, accepted, same⟩ := ok_of_bind renamed
      cases same
      exact sound.edit (e := .rename id name takes) nofun accepted included nofun
  | addStudio fresh name => exact (sound.mono included).of_params rfl
  | removeStudio removed =>
    refine (sound.mono included).of_params ?_
    unfold Document.removeStudio? at removed
    dsimp only at removed
    split at removed
    · cases removed
    · split at removed
      · cases removed
        rfl
      · cases removed

theorem Command.apply_soundParameters {s : Session}
    (sound : s.Throughout (Document.SoundParameters mentioned))
    (fresh : ∀ id ∈ c.makes, id ∉ c.names ++ mentioned) (now : Timestamp) :
    (c.apply s now).Throughout (Document.SoundParameters (c.makes ++ c.names ++ mentioned)) := by
  have included : mentioned ⊆ c.makes ++ c.names ++ mentioned := List.subset_append_right _ _
  have kept : s.Throughout (Document.SoundParameters (c.makes ++ c.names ++ mentioned)) :=
    fun d member => (sound d member).mono included
  unfold Command.apply
  cases accepted : c.run? s now with
  | none => exact kept
  | some t =>
    cases Command.run?_leads accepted with
    | edited edits =>
      exact Throughout.record kept ((edits.soundParameters sound.present fresh).of_params rfl)
    | unchanged => exact kept.record (kept.present.of_params rfl)
    | undo undone => exact kept.undo undone
    | redo redone => exact kept.redo redone

theorem run_soundParameters {s : Session} {commands : List (Timestamp × Command)}
    (sound : s.Throughout (Document.SoundParameters mentioned))
    (fresh : FreshFrom mentioned (commands.map (·.2))) :
    ∃ all, (commands.foldl (fun s c => c.2.apply s c.1) s).Throughout
      (Document.SoundParameters all) := by
  induction commands generalizing s mentioned with
  | nil => exact ⟨mentioned, sound⟩
  | cons c rest ih => exact ih (Command.apply_soundParameters sound fresh.1 c.1) fresh.2

theorem sound_after {first : StudioId} {settings : Settings} {commands : List (Timestamp × Command)}
    (fresh : FreshFrom [⟨.studio, first⟩] (commands.map (·.2))) :
    ∃ made, (after first settings commands).document.params.Sound made := by
  have start : (start (.new first) settings).Throughout
      (Document.SoundParameters [⟨.studio, first⟩]) :=
    throughout_start (Document.SoundParameters.new first) settings
  obtain ⟨_, sound⟩ := run_soundParameters start fresh
  obtain ⟨made, sound, _⟩ := sound.present
  exact ⟨made, sound⟩

end Session

end Parametric
