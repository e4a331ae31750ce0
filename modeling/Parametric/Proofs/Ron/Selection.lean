import Parametric.Proofs.Ron.InStep
import Parametric.Proofs.Ron.Numbers
/-! A record that is read for some of its fields.

Who asks for a few fields passes over the others, in step with those who read them. So two readers
with different fields together find what one with the fields of both finds.
-/

set_option autoImplicit false

namespace Parametric.Ron

namespace Reader

/-! ## The parts of two readers -/

section

variable {α β γ : Type} {cs rest other : List Char} {closing : Char}
  {related : α → γ → Prop} {related' : β → γ → Prop}
  {reader : Reader α} {beside : Reader β} {joint : Reader γ}

/-- Wherever two readers read a value, up to the same place, a third one does, and its value is
related to both. -/
def Joins (related : α → γ → Prop) (related' : β → γ → Prop) (reader : Reader α)
    (beside : Reader β) (joint : Reader γ) : Prop :=
  ∀ ⦃cs x y rest other⦄, reader cs = some (x, rest) → beside cs = some (y, other) →
    Ends rest → Ends other → afterBlanks? .outside rest = afterBlanks? .outside other ∧
      ∃ z behind, joint cs = some (z, behind) ∧
        afterBlanks? .outside behind = afterBlanks? .outside rest ∧ related x z ∧ related' y z

theorem Joins.guarded (joins : Joins related related' reader beside joint) (p : Prop)
    [Decidable p] :
    Joins related related' (do guard p; reader) (do guard p; beside) (do guard p; joint) := by
  intro cs x y rest other read read' ends ends'
  obtain ⟨_, _, guarded, read⟩ := bind_eq_some read
  obtain ⟨holds, rfl⟩ := guard_eq_some guarded
  obtain ⟨_, _, guarded, read'⟩ := bind_eq_some read'
  obtain ⟨-, rfl⟩ := guard_eq_some guarded
  rw [bind_eq (guard_eq holds cs)]
  exact joins read read' ends ends'

variable (isClosing : closing ∈ [')', ']', '}'])
include isClosing

theorem parts_succ {fuel : Nat} {found : List α} (goesOn : cs.head? ≠ some closing)
    (read : parts closing reader (fuel + 1) cs = some (found, closing :: rest)) :
    ∃ x middle, reader cs = some (x, middle) ∧ Ends middle ∧
      ((∃ next later, tookComma middle = some (true, next) ∧
          parts closing reader fuel next = some (later, closing :: rest) ∧ found = x :: later) ∨
        tookComma middle = some (false, closing :: rest) ∧ found = [x]) := by
  rw [parts, bind_eq (next?_eq cs), if_neg goesOn] at read
  obtain ⟨x, middle, here, behind⟩ := bind_eq_some read
  obtain ⟨comma, next, took, behind⟩ := bind_eq_some behind
  refine ⟨x, middle, here, ?_⟩
  rcases tookComma_eq_some took with ⟨rfl, tail, after, -⟩ | ⟨rfl, after, -⟩
  · rw [if_pos rfl] at behind
    obtain ⟨later, _, more, done⟩ := bind_eq_some behind
    cases done
    exact ⟨ends_comma after, .inl ⟨next, later, took, more, rfl⟩⟩
  · cases behind
    exact ⟨ends_closing isClosing after, .inr ⟨took, rfl⟩⟩

theorem parts_join (joins : Joins related related' reader beside joint) {fuel : Nat}
    {found : List α} {others : List β}
    (read : parts closing reader fuel cs = some (found, closing :: rest))
    (read' : parts closing beside fuel cs = some (others, closing :: other)) : rest = other ∧
      ∃ all, parts closing joint fuel cs = some (all, closing :: rest) ∧
        List.Forall₂ related found all ∧ List.Forall₂ related' others all := by
  induction fuel generalizing cs found others with
  | zero => cases read
  | succ fuel ih =>
    by_cases closes : cs.head? = some closing
    · rw [parts, bind_eq (next?_eq cs), if_pos closes] at read read' ⊢
      cases read
      cases read'
      exact ⟨rfl, [], rfl, .nil, .nil⟩
    · obtain ⟨x, middle, here, ends, later⟩ := parts_succ isClosing closes read
      obtain ⟨y, middle', here', ends', later'⟩ := parts_succ isClosing closes read'
      obtain ⟨same, z, behind, here'', place, pair, pair'⟩ := joins here here' ends ends'
      -- A comma or none comes next, for all three alike.
      have comma := tookComma_congr place
      rw [parts, bind_eq (next?_eq cs), if_neg closes, bind_eq here'']
      rw [← tookComma_congr same] at later'
      rcases later with ⟨next, xs, took, more, rfl⟩ | ⟨took, rfl⟩
      · rcases later' with ⟨next', ys, took', more', rfl⟩ | ⟨took', -⟩
        · rw [took] at took'
          cases took'
          obtain ⟨same, all, more'', pairs, pairs'⟩ := ih more more'
          refine ⟨same, z :: all, ?_, .cons pair pairs, .cons pair' pairs'⟩
          rw [bind_eq (comma.trans took), if_pos rfl, bind_eq more'']
          rfl
        · rw [took] at took'
          cases took'
      · rcases later' with ⟨next', ys, took', -⟩ | ⟨took', rfl⟩
        · rw [took] at took'
          cases took'
        · rw [took] at took'
          cases took'
          refine ⟨rfl, [z], ?_, .cons pair .nil, .cons pair' .nil⟩
          rw [bind_eq (comma.trans took), if_neg Bool.false_ne_true]
          rfl

theorem bracketed_join (joins : Joins related related' reader beside joint) {levels : Nat}
    {opening : Char} {found : List α} {others : List β}
    (read : bracketed levels opening closing reader cs = some (found, rest))
    (read' : bracketed levels opening closing beside cs = some (others, other)) : rest = other ∧
      ∃ all, bracketed levels opening closing joint cs = some (all, rest) ∧
        List.Forall₂ related found all ∧ List.Forall₂ related' others all := by
  obtain ⟨_, _, guarded, behind⟩ := bind_eq_some read
  obtain ⟨enough, rfl⟩ := guard_eq_some guarded
  obtain ⟨_, tail, opened, behind⟩ := bind_eq_some behind
  obtain ⟨_, inside, blank, behind⟩ := bind_eq_some behind
  rw [bind_eq (get_eq inside)] at behind
  obtain ⟨_, closes, items, behind⟩ := bind_eq_some behind
  obtain ⟨_, _, closed, done⟩ := bind_eq_some behind
  cases done
  obtain rfl := take_eq_some closed
  rw [bracketed, bind_eq (guard_eq enough _), bind_eq opened, bind_eq blank,
    bind_eq (get_eq inside)] at read' ⊢
  obtain ⟨_, closes', items', behind'⟩ := bind_eq_some read'
  obtain ⟨_, _, closed', done⟩ := bind_eq_some behind'
  cases done
  obtain rfl := take_eq_some closed'
  obtain ⟨same, all, items'', pairs, pairs'⟩ :=
    parts_join isClosing (joins.guarded (1 < levels)) items items'
  refine ⟨same, all, ?_, pairs, pairs'⟩
  rw [bind_eq items'', bind_eq closed]
  rfl

end

/-! ## Fields -/

section

variable {cs rest start : List Char} {key : String} {forms : List (String × Form)} {form : Form}
  {value : Form → Reader Value} {beyond : Reader Unit} {v : Value}

theorem field_asked (keyed : Keyed cs key start) (asked : forms.lookup key = some form)
    (read : value form start = some (v, rest)) :
    field forms value beyond cs = some (some (key, v), rest) := by
  obtain ⟨middle, tail, named, colon, begins⟩ := keyed
  rw [field, bind_eq named, bind_eq (blanks_eq colon), bind_eq (take_cons ':' tail),
    bind_eq (blanks_eq begins), asked]
  dsimp only
  rw [bind_eq read]
  rfl

theorem field_unasked (keyed : Keyed cs key start) (unasked : forms.lookup key = none)
    (passed : beyond start = some ((), rest)) :
    field forms value beyond cs = some (none, rest) := by
  obtain ⟨middle, tail, named, colon, begins⟩ := keyed
  rw [field, bind_eq named, bind_eq (blanks_eq colon), bind_eq (take_cons ':' tail),
    bind_eq (blanks_eq begins), unasked]
  dsimp only
  rw [bind_eq passed]
  rfl

end

def AlikeAt (key : String) (found other : Option (String × Value)) : Prop :=
  ∀ v, found = some (key, v) ↔ other = some (key, v)

theorem alikeAt_apart {forms : List (String × Form)} {key there : String} {form : Form}
    (listed : forms.lookup there = some form) (unlisted : forms.lookup key = none) (v : Value) :
    AlikeAt key none (some (there, v)) := by
  intro w
  refine ⟨fun same => (by cases same), fun same => ?_⟩
  cases same
  rw [listed] at unlisted
  cases unlisted

section

variable {key : String} {found others : List (Option (String × Value))}

theorem entries_alike (alike : List.Forall₂ (AlikeAt key) found others) :
    (found.filterMap id).filter (·.1 == key) = (others.filterMap id).filter (·.1 == key) := by
  have kept (v : Value) (found : List (Option (String × Value))) :
      ((some (key, v) :: found).filterMap id).filter (·.1 == key) =
        (key, v) :: (found.filterMap id).filter (·.1 == key) :=
    List.filter_cons_of_pos (beq_self_eq_true key)
  have dropped {x : Option (String × Value)} (apart : ∀ v, x ≠ some (key, v))
      (found : List (Option (String × Value))) :
      ((x :: found).filterMap id).filter (·.1 == key) =
        (found.filterMap id).filter (·.1 == key) := by
    cases x with
    | none => rfl
    | some field =>
      refine List.filter_cons_of_neg fun same => ?_
      exact apart field.2 (by rw [← eq_of_beq same])
  induction alike with
  | nil => rfl
  | @cons x y found others same _ ih =>
    by_cases here : ∃ v, x = some (key, v)
    · obtain ⟨v, rfl⟩ := here
      rw [(same v).mp rfl, kept, kept, ih]
    · have apart : ∀ v, x ≠ some (key, v) := fun v found => here ⟨v, found⟩
      rw [dropped apart, dropped (fun v found => apart v ((same v).mpr found)), ih]

theorem sublist_entries (fewer : List.Forall₂ (fun x z => z = x ∨ z = none) found others) :
    (others.filterMap id).Sublist (found.filterMap id) := by
  induction fewer with
  | nil => exact .slnil
  | @cons x z found others same _ ih =>
    cases x with
    | none =>
      obtain rfl : z = none := by simpa using same
      exact ih
    | some entry =>
      rcases same with rfl | rfl
      · exact ih.cons_cons entry
      · exact ih.cons entry

theorem lookup_entries (entries : List (String × Value)) :
    (entries.filter (·.1 == key)).lookup key = entries.lookup key := by
  induction entries with
  | nil => rfl
  | cons entry entries ih =>
    rw [List.filter_cons, List.lookup_cons]
    cases same : entry.1 == key with
    | true =>
      rw [if_pos rfl, List.lookup_cons]
      rw [← eq_of_beq same, beq_self_eq_true]
    | false =>
      rw [if_neg Bool.false_ne_true, ih, Bool.beq_comm.trans same]

theorem lookup_alike (alike : List.Forall₂ (AlikeAt key) found others) :
    (others.filterMap id).lookup key = (found.filterMap id).lookup key := by
  rw [← lookup_entries, ← entries_alike alike, lookup_entries]

theorem count_alike (alike : List.Forall₂ (AlikeAt key) found others) :
    ((others.filterMap id).map (·.1)).count key = ((found.filterMap id).map (·.1)).count key := by
  have counted (entries : List (String × Value)) :
      (entries.map (·.1)).count key = (entries.filter (·.1 == key)).length := by
    rw [List.count, List.countP_map, List.countP_eq_length_filter]
    rfl
  rw [counted, counted, entries_alike alike]

end

section

variable {extensions : Extensions} {few more : List (String × Form)} {cs rest other : List Char}
  {levels : Nat}

theorem lookup_few {key : String} {form : Form} (listed : few.lookup key = some form) :
    (few ++ more).lookup key = some form := by
  rw [List.lookup_append, listed, Option.some_or]

theorem lookup_more {key : String} (unlisted : few.lookup key = none) :
    (few ++ more).lookup key = more.lookup key := by
  rw [List.lookup_append, unlisted, Option.none_or]

variable (apart : ∀ key form, few.lookup key = some form → more.lookup key = none)
include apart

theorem unlisted_few {key : String} {form : Form} (listed : more.lookup key = some form) :
    few.lookup key = none := by
  rw [Option.eq_none_iff_forall_ne_some]
  intro other fewer
  rw [apart key other fewer] at listed
  cases listed

section

variable (regular : ∀ field ∈ few, field.2.Regular) (regular' : ∀ field ∈ more, field.2.Regular)

include regular regular'

/-- Who asks for the fields of two readers finds what both find, each under its own keys. -/
theorem field_joins (extensions : Extensions) (inside deeper : Nat) :
    Joins (fun x z => ∀ key, more.lookup key = none → AlikeAt key x z)
      (fun y z => ∀ key, few.lookup key = none → AlikeAt key y z)
      (field few (value extensions inside) (skip extensions deeper))
      (field more (value extensions inside) (skip extensions deeper))
      (field (few ++ more) (value extensions inside) (skip extensions deeper)) := by
  intro cs x y rest other read read' ends ends'
  obtain ⟨key, start, keyed, asked⟩ := field_eq_some read
  obtain ⟨_, _, keyed', asked'⟩ := field_eq_some read'
  obtain ⟨rfl, rfl⟩ := keyed.unique keyed'
  have inStep := inStep_value extensions inside
  rcases asked with ⟨form, v, listed, found, rfl⟩ | ⟨unlisted, passed, rfl⟩
  · rcases asked' with ⟨_, _, listed', -⟩ | ⟨unlisted', passed', rfl⟩
    · rw [apart key form listed] at listed'
      cases listed'
    · have both := inStep.alongside (regular _ (mem_of_lookup listed)) deeper
      have same := both found passed' ends ends'
      refine ⟨same, _, rest, field_asked keyed (lookup_few listed) found, rfl, ?_, ?_⟩
      · exact fun _ _ _ => .rfl
      · exact fun key' none => alikeAt_apart listed none v
  · rcases asked' with ⟨form, v, listed', found', rfl⟩ | ⟨unlisted', passed', rfl⟩
    · have both := inStep.alongside (regular' _ (mem_of_lookup listed')) deeper
      have same := both found' passed ends' ends
      have joint := (lookup_more unlisted).trans listed'
      refine ⟨same.symm, _, other, field_asked keyed joint found', same, ?_, ?_⟩
      · exact fun key' none => alikeAt_apart listed' none v
      · exact fun _ _ _ => .rfl
    · have joint := (lookup_more unlisted).trans unlisted'
      rw [skip_unique passed' passed]
      exact ⟨rfl, _, rest, field_unasked keyed joint passed, rfl, fun _ _ _ => .rfl,
        fun _ _ _ => .rfl⟩

theorem fields_join {inside deeper : Nat} {found others : List (String × Value)}
    (read : fields levels few (value extensions inside) (skip extensions deeper) cs =
      some (found, rest))
    (read' : fields levels more (value extensions inside) (skip extensions deeper) cs =
      some (others, other)) : rest = other ∧ ∃ all,
      fields levels (few ++ more) (value extensions inside) (skip extensions deeper) cs =
        some (all, rest) ∧
      (∀ key, more.lookup key = none → all.lookup key = found.lookup key) ∧
      ∀ key, few.lookup key = none → all.lookup key = others.lookup key := by
  obtain ⟨found, brackets, rfl, distinct⟩ := fields_eq_some read
  obtain ⟨others, brackets', rfl, distinct'⟩ := fields_eq_some read'
  have joins := field_joins apart regular regular' extensions inside deeper
  obtain ⟨same, all, joint, alike, alike'⟩ := bracketed_join (by simp) joins brackets brackets'
  have few_alike (key : String) (unlisted : more.lookup key = none) :
      List.Forall₂ (AlikeAt key) found all :=
    alike.imp fun _ _ both => both key unlisted
  have more_alike (key : String) (unlisted : few.lookup key = none) :
      List.Forall₂ (AlikeAt key) others all :=
    alike'.imp fun _ _ both => both key unlisted
  -- Each key is asked for by one of the two readers at most, and it comes once there.
  have once : ((all.filterMap id).map (·.1)).Nodup := by
    rw [List.nodup_iff_count_le_one]
    intro key
    cases listed : more.lookup key with
    | none =>
      rw [count_alike (few_alike key listed)]
      exact List.nodup_iff_count_le_one.mp distinct key
    | some form =>
      rw [count_alike (more_alike key (unlisted_few apart listed))]
      exact List.nodup_iff_count_le_one.mp distinct' key
  refine ⟨same, all.filterMap id, ?_, fun key unlisted => lookup_alike (few_alike key unlisted),
    fun key unlisted => lookup_alike (more_alike key unlisted)⟩
  rw [fields, bind_eq joint, bind_eq (guard_eq once rest)]
  rfl

end

/-- Who asks for some of the fields finds the same under their keys, if the others are passed over
as they are read. -/
theorem field_selects (extensions : Extensions) (inside deeper : Nat)
    (passed : ∀ key form, few.lookup key = some form → ∀ ⦃cs v rest⦄,
      value extensions inside form cs = some (v, rest) → Ends rest →
        skip extensions deeper cs = some ((), rest)) :
    Joins (fun x z => z = x ∨ z = none)
      (fun y z => ∀ key form, more.lookup key = some form → AlikeAt key y z)
      (field (few ++ more) (value extensions inside) (skip extensions deeper))
      (field (few ++ more) (value extensions inside) (skip extensions deeper))
      (field more (value extensions inside) (skip extensions deeper)) := by
  intro cs x y rest other read read' ends ends'
  rw [read] at read'
  cases read'
  refine ⟨rfl, ?_⟩
  obtain ⟨key, start, keyed, asked⟩ := field_eq_some read
  cases fewer : few.lookup key with
  | some form =>
    rw [lookup_few fewer] at asked
    obtain ⟨_, v, same, found, rfl⟩ | ⟨unlisted, -⟩ := asked
    · cases same
      have skipped := passed key form fewer found ends
      refine ⟨none, rest, field_unasked keyed (apart key form fewer) skipped, rfl, .inr rfl, ?_⟩
      intro key' form' listed w
      exact (alikeAt_apart fewer (unlisted_few apart listed) v w).symm
    · cases unlisted
  | none =>
    rw [lookup_more fewer] at asked
    obtain ⟨form, v, listed, found, rfl⟩ | ⟨unlisted, skipped, rfl⟩ := asked
    · exact ⟨_, rest, field_asked keyed listed found, rfl, .inl rfl, fun _ _ _ _ => .rfl⟩
    · exact ⟨none, rest, field_unasked keyed unlisted skipped, rfl, .inl rfl, fun _ _ _ _ => .rfl⟩

theorem fields_select {inside deeper : Nat} {all : List (String × Value)}
    (passed : ∀ key form, few.lookup key = some form → ∀ ⦃cs v rest⦄,
      value extensions inside form cs = some (v, rest) → Ends rest →
        skip extensions deeper cs = some ((), rest))
    (read : fields levels (few ++ more) (value extensions inside) (skip extensions deeper) cs =
      some (all, rest)) : ∃ found,
      fields levels more (value extensions inside) (skip extensions deeper) cs =
        some (found, rest) ∧
      ∀ key form, more.lookup key = some form → found.lookup key = all.lookup key := by
  obtain ⟨all, brackets, rfl, distinct⟩ := fields_eq_some read
  have joins := field_selects apart extensions inside deeper passed
  obtain ⟨-, found, joint, fewer, alike⟩ := bracketed_join (by simp) joins brackets brackets
  have sublist : (found.filterMap id).Sublist (all.filterMap id) := sublist_entries fewer
  refine ⟨found.filterMap id, ?_, fun key form listed =>
    lookup_alike (alike.imp fun _ _ both => both key form listed)⟩
  rw [fields, bind_eq joint, bind_eq (guard_eq (distinct.sublist (sublist.map _)) rest)]
  rfl

end

/-! ## Texts -/

theorem optionalName_unique {cs rest other : List Char} {kind kind' : String}
    (read : optionalName kind cs = some ((), rest))
    (read' : optionalName kind' cs = some ((), other)) : rest = other := by
  rcases optionalName_eq_some read with named | ⟨noName, rfl⟩
  · rcases optionalName_eq_some read' with named' | ⟨noName, -⟩
    · rw [named] at named'
      cases named'
      rfl
    · rw [named] at noName
      cases noName
  · rcases optionalName_eq_some read' with named | ⟨-, rfl⟩
    · rw [noName] at named
      cases named
    · rfl

def Headed (source : String) (extensions : Extensions) (start : List Char) : Prop :=
  ∃ middle, afterBlanks? .outside source.toList = some middle ∧
    attributes .standard (middle.length + 1) middle = some (extensions, start)

theorem Headed.unique {source : String} {extensions extensions' : Extensions}
    {start start' : List Char} (headed : Headed source extensions start)
    (headed' : Headed source extensions' start') : extensions = extensions' ∧ start = start' := by
  obtain ⟨middle, blank, asked⟩ := headed
  obtain ⟨middle', blank', asked'⟩ := headed'
  rw [blank] at blank'
  cases blank'
  rw [asked] at asked'
  cases asked'
  exact ⟨rfl, rfl⟩

theorem read?_eq_some_iff {form : Form} {source : String} {v : Value} :
    read? form source = some v ↔ ∃ extensions start behind, Headed source extensions start ∧
      value extensions levelLimit form start = some (v, behind) ∧
      afterBlanks? .outside behind = some [] := by
  constructor
  · intro read
    obtain ⟨⟨_, _⟩, whole, rfl⟩ := Option.map_eq_some_iff.mp read
    obtain ⟨_, middle, blank, behind⟩ := bind_eq_some whole
    rw [bind_eq (get_eq middle)] at behind
    obtain ⟨extensions, start, asked, behind⟩ := bind_eq_some behind
    obtain ⟨found, after, inside, behind⟩ := bind_eq_some behind
    obtain ⟨_, last, blank', behind⟩ := bind_eq_some behind
    rw [bind_eq (get_eq last)] at behind
    obtain ⟨_, _, guarded, done⟩ := bind_eq_some behind
    obtain ⟨empty, rfl⟩ := guard_eq_some guarded
    cases done
    refine ⟨extensions, start, after, ⟨middle, blanks_eq_some blank, asked⟩, inside, ?_⟩
    rw [blanks_eq_some blank', List.isEmpty_iff.mp empty]
  · rintro ⟨extensions, start, after, ⟨middle, blank, asked⟩, inside, ends⟩
    have whole : text form source.toList = some (v, []) := by
      rw [text, bind_eq (blanks_eq blank), bind_eq (get_eq middle), bind_eq asked,
        bind_eq inside, bind_eq (blanks_eq ends), bind_eq (get_eq [])]
      rfl
    rw [read?, whole]
    rfl

theorem value_record_iff {extensions : Extensions} (levels : Nat) {kind : String}
    {forms : List (String × Form)} {cs rest : List Char} {v : Value} :
    value extensions (levels + 2) (.record kind forms) cs = some (v, rest) ↔
      ∃ middle opening found, optionalName kind cs = some ((), middle) ∧
        afterBlanks? .outside middle = some opening ∧
        fields (levels + 2) forms (value extensions levels) (skip extensions levels) opening =
          some (found, rest) ∧ v = .record none found := by
  obtain ⟨_, _, same⟩ := value_add_two extensions levels
  rw [same]
  exact record_eq_some_iff

def fieldLevels : Nat := levelLimit - 2

/-- The bracket of a record that a text is opens behind its name, if it has one, and blanks. -/
def Opened (kind source : String) (extensions : Extensions) (opening : List Char) : Prop :=
  ∃ start middle, Headed source extensions start ∧ optionalName kind start = some ((), middle) ∧
    afterBlanks? .outside middle = some opening

theorem Opened.unique {kind kind' source : String} {extensions extensions' : Extensions}
    {opening opening' : List Char} (opened : Opened kind source extensions opening)
    (opened' : Opened kind' source extensions' opening') :
    extensions = extensions' ∧ opening = opening' := by
  obtain ⟨start, middle, headed, choose, after⟩ := opened
  obtain ⟨start', middle', headed', choose', after'⟩ := opened'
  obtain ⟨rfl, rfl⟩ := headed.unique headed'
  obtain rfl := optionalName_unique choose choose'
  rw [after] at after'
  cases after'
  exact ⟨rfl, rfl⟩

theorem read?_record_iff {kind : String} {forms : List (String × Form)} {source : String}
    {v : Value} : read? (.record kind forms) source = some v ↔
      ∃ extensions opening found behind, Opened kind source extensions opening ∧
        fields levelLimit forms (value extensions fieldLevels) (skip extensions fieldLevels)
          opening = some (found, behind) ∧
        afterBlanks? .outside behind = some [] ∧ v = .record none found := by
  rw [read?_eq_some_iff]
  constructor
  · rintro ⟨extensions, start, behind, headed, read, ends⟩
    obtain ⟨middle, opening, found, choose, after, all, rfl⟩ :=
      (value_record_iff fieldLevels).mp read
    exact ⟨extensions, opening, found, behind, ⟨start, middle, headed, choose, after⟩, all, ends,
      rfl⟩
  · rintro ⟨extensions, opening, found, behind, ⟨start, middle, headed, choose, after⟩, all, ends,
      rfl⟩
    exact ⟨extensions, start, behind, headed,
      (value_record_iff fieldLevels).mpr ⟨middle, opening, found, choose, after, all, rfl⟩, ends⟩

end Reader

section

variable {few more : List (String × Form)} {kind source : String}
  (apart : ∀ key form, few.lookup key = some form → more.lookup key = none)
include apart

/-- A record that is read for some fields and for others is read for all of them. -/
theorem read?_join {kind' : String} (regular : ∀ field ∈ few, field.2.Regular)
    (regular' : ∀ field ∈ more, field.2.Regular) {v w : Value}
    (read : read? (.record kind' few) source = some v)
    (read' : read? (.record kind more) source = some w) : ∃ found others all,
      v = .record none found ∧ w = .record none others ∧
      read? (.record kind (few ++ more)) source = some (.record none all) ∧
      (∀ key, more.lookup key = none → all.lookup key = found.lookup key) ∧
      ∀ key, few.lookup key = none → all.lookup key = others.lookup key := by
  obtain ⟨extensions, opening, found, behind, opened, part, ends, rfl⟩ :=
    Reader.read?_record_iff.mp read
  obtain ⟨_, _, others, _, opened', part', _, rfl⟩ := Reader.read?_record_iff.mp read'
  obtain ⟨rfl, rfl⟩ := opened.unique opened'
  obtain ⟨-, all, joint, same, same'⟩ := Reader.fields_join apart regular regular' part part'
  refine ⟨found, others, all, rfl, rfl, Reader.read?_record_iff.mpr ?_, same, same'⟩
  exact ⟨extensions, opening, all, behind, opened', joint, ends, rfl⟩

/-- A record that is read for all fields is read for some of them, if the others are natural
numbers. -/
theorem read?_select (numbers : ∀ field ∈ few, ∃ width ≤ 64, field.2 = .natural width) {v : Value}
    (read : read? (.record kind (few ++ more)) source = some v) : ∃ all found,
      v = .record none all ∧ read? (.record kind more) source = some (.record none found) ∧
      ∀ key form, more.lookup key = some form → found.lookup key = all.lookup key := by
  obtain ⟨extensions, opening, all, behind, opened, joint, ends, rfl⟩ :=
    Reader.read?_record_iff.mp read
  have passed (key : String) (form : Form) (listed : few.lookup key = some form)
      ⦃cs : List Char⦄ ⦃w : Value⦄ ⦃rest : List Char⦄
      (number : Reader.value extensions Reader.fieldLevels form cs = some (w, rest))
      (ends : Ends rest) :
      Reader.skip extensions Reader.fieldLevels cs = some ((), rest) := by
    obtain ⟨width, le, rfl⟩ := numbers _ (Reader.mem_of_lookup listed)
    obtain ⟨_, _, _, same⟩ := Reader.value_eq extensions Reader.fieldLevels
    rw [same] at number
    obtain ⟨n, _, number, done⟩ := Reader.bind_eq_some number
    cases done
    exact Reader.skip_natural le number ends _
  obtain ⟨found, part, same⟩ := Reader.fields_select apart passed joint
  refine ⟨all, found, rfl, Reader.read?_record_iff.mpr ?_, same⟩
  exact ⟨extensions, opening, found, behind, opened, part, ends, rfl⟩

end

end Parametric.Ron
