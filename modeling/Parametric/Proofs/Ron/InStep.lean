import Parametric.Proofs.Ron.Alongside
import Parametric.Proofs.Ron.Regular
/-! Values of regular forms are read in step with passing over.

A reader of a value goes by its form, and one that passes over it by its first characters, yet both
end at the same place. What one level of nesting adds keeps this, so it holds of all levels.
-/

set_option autoImplicit false

namespace Parametric.Ron

namespace Reader

variable {α : Type} {extensions : Extensions} {cs rest other : List Char} {v : Value}

/-! ## Values in an optional one -/

theorem alongside_skipInner {reader : Reader α}
    (both : ∀ levels, Alongside reader (skip extensions levels)) (levels : Nat) :
    Alongside reader (skipInner extensions levels) := by
  cases levels with
  | zero => exact fun _ _ _ _ _ _ passed => by cases passed
  | succ inside => exact both inside

theorem alongside_skipPart {reader : Reader α}
    (both : ∀ levels, Alongside reader (skip extensions levels)) (levels : Nat) :
    Alongside reader (skipPart extensions levels) := by
  rcases levels with _ | _ | inside
  · exact fun _ _ _ _ _ _ passed => by cases passed
  · exact fun _ _ _ _ _ _ passed => by cases passed
  · exact both inside

def Simple (reader : Reader α) : Prop :=
  ∀ ⦃cs x rest⦄, reader cs = some (x, rest) → Run cs rest ∨ ∃ text, string cs = some (text, rest)

section

variable {reader : Reader α} (both : ∀ levels, Alongside reader
  (skip extensions levels)) {levels : Nat} {tail : List Char}
include both

theorem marked_alongside (stops : tail.head?.any continuesWord = false) {found : Option α}
    (read : Optional extensions reader ("Some".toList ++ tail) found rest) (ends : Ends rest)
    (passed : skip extensions levels ("Some".toList ++ tail) = some ((), other))
    (ends' : Ends other) : afterBlanks? .outside rest = afterBlanks? .outside other := by
  have inner := alongside_skipInner both levels
  rw [skip_eq] at passed
  obtain ⟨_, optional⟩ := (skips passed).option_eq (atWord_self "Some" stops)
  have marked : ("Some".toList).isPrefixOf ("Some".toList ++ tail) = true :=
    List.isPrefixOf_iff_prefix.mpr (List.prefix_append _ _)
  cases read with
  | absent front => cases front
  | unmarked noMark =>
    rw [marked] at noMark
    cases noMark
  | present front after begins read comma =>
    obtain rfl := List.append_cancel_left front
    cases option_eq_some optional with
    | absent front => cases front
    | unmarked noMark =>
      rw [marked] at noMark
      cases noMark
    | present front' after' begins' read' comma' =>
      obtain rfl := List.append_cancel_left front'
      rw [after] at after'
      cases after'
      rw [begins] at begins'
      cases begins'
      have same := inner read read' (ends_of_tookComma comma) (ends_of_tookComma comma')
      rw [tookComma_congr same, comma'] at comma
      cases comma
      rfl
    | bare front' after' noBracket =>
      obtain rfl := List.append_cancel_left front'
      rw [after] at after'
      cases after'
      exact absurd rfl noBracket
  | bare front after noBracket read =>
    obtain rfl := List.append_cancel_left front
    cases option_eq_some optional with
    | absent front => cases front
    | unmarked noMark =>
      rw [marked] at noMark
      cases noMark
    | present front' after' =>
      obtain rfl := List.append_cancel_left front'
      rw [after] at after'
      cases after'
      exact absurd rfl noBracket
    | bare front' after' _ read' =>
      obtain rfl := List.append_cancel_left front'
      rw [after] at after'
      cases after'
      exact inner read read' ends ends'

/-- An optional value ends where it is passed over, also if it is bare or glued to its mark. -/
theorem option_alongside (simple : Simple reader) :
    Alongside (option extensions reader) (skip extensions levels) := by
  intro cs found _ rest other read passed ends ends'
  cases option_eq_some read with
  | absent front =>
    have run : Run cs rest := ⟨"None".toList, by decide, by
      simp [continuesRawWord, continuesWord], front⟩
    exact skip_run (.inr run) ends passed ends'
  | unmarked _ inside => exact both levels inside passed ends ends'
  | @present _ tail _ _ _ _ _ front after =>
    have stops : tail.head?.any continuesWord = false := by
      cases tail with
      | nil => rfl
      | cons c more =>
        rw [Bool.eq_false_iff]
        intro word
        rw [visible_word word more] at after
        cases after
        cases word
    rw [front] at read passed
    exact marked_alongside both stops (option_eq_some read) ends passed ends'
  | @bare _ tail _ _ front after _ inside =>
    cases stops : tail.head?.any continuesWord with
    | false =>
      rw [front] at read passed
      exact marked_alongside both stops (option_eq_some read) ends passed ends'
    | true =>
      cases tail with
      | nil => cases stops
      | cons c more =>
        -- `Some` runs on into the value, so that who passes over it sees no mark.
        rw [visible_word stops more] at after
        cases after
        rcases simple inside with run | ⟨text, quoted⟩
        · have run : Run cs rest := front ▸ (((run.cons rfl).cons rfl).cons rfl).cons rfl
          exact skip_run (.inr run) ends passed ends'
        · rcases string_front quoted with ⟨tail, same⟩ | ⟨mark, tail, same, isMark, -⟩
          · cases same
            cases stops
          · cases same
            rw [front, skip_eq] at passed
            exact ((skips passed).glued_absurd isMark ends').elim

end

theorem Simple.alongside {reader : Reader α} (simple : Simple reader) (levels : Nat) :
    Alongside reader (skip extensions levels) := by
  intro cs x _ rest other read passed ends ends'
  rcases simple read with run | ⟨text, quoted⟩
  · exact skip_run (.inr run) ends passed ends'
  · rw [skip_eq] at passed
    rw [(skips passed).text_eq quoted]

theorem word_alongside {word : String} (nonempty : word.toList ≠ [])
    (plain : ∀ c ∈ word.toList, continuesRawWord c = true) (front : cs = word.toList ++ rest)
    (ends : Ends rest) {levels : Nat} (passed : skip extensions levels cs = some ((), other))
    (ends' : Ends other) : afterBlanks? .outside rest = afterBlanks? .outside other :=
  skip_run (.inr ⟨word.toList, nonempty, plain, front⟩) ends passed ends'

theorem name_alongside (levels : Nat) :
    Alongside name (skip extensions levels) := by
  intro cs word _ rest other read passed ends ends'
  cases named read with
  | plain front starts all text =>
    have nonempty : word.toList ≠ [] := by
      intro empty
      rw [empty, List.nil_append, front] at text
      subst text
      have stops := ends.noRun _ rfl
      rw [continuesRawWord, continuesWord_of_startsWord starts] at stops
      cases stops
    exact word_alongside nonempty (fun c member => by simp [continuesRawWord, all c member]) text
      ends passed ends'
  | raw front =>
    rw [skip_eq] at passed
    obtain ⟨start, after, ⟨rfl, -⟩ | ⟨_, _, _, brackets⟩⟩ :=
      (skips passed).name_eq read fun _ => atWord_of_raw front
    · rw [after, visible_afterBlanks after]
    · obtain ⟨_, _, rfl, _⟩ := bracketed_eq_some brackets
      exact absurd after (ends_bracket ends)

/-! ## Brackets behind a name -/

theorem name_of_head (noWord : cs.head?.any continuesWord = false) : name cs = none := by
  cases found : name cs with
  | none => rfl
  | some read =>
    cases named found with
    | plain front starts =>
      rw [front] at noWord
      have word := continuesWord_of_startsWord starts
      exact absurd (word.symm.trans noWord) (by simp)
    | raw front =>
      rw [front] at noWord
      cases noWord

theorem optionalName_eq_some {expected : String} {x : Unit}
    (read : optionalName expected cs = some (x, rest)) :
    name cs = some (expected, rest) ∨ name cs = none ∧ cs = rest := by
  obtain ⟨_, _, got, choose⟩ := bind_eq_some read
  obtain ⟨rfl, rfl⟩ := next?_eq_some got
  split at choose
  · obtain ⟨word, middle, named, guarded⟩ := bind_eq_some choose
    obtain ⟨rfl, rfl⟩ := guard_eq_some guarded
    exact .inl named
  · next noWord =>
    cases choose
    exact .inr ⟨name_of_head (Bool.eq_false_iff.mpr noWord), rfl⟩

section

variable {levels : Nat} {inner part variantPart : Form → Reader Value}

theorem tuple_eq_some {kind : Option String} {items : List Form}
    (read : valueOf extensions levels inner part variantPart (.tuple kind items) cs =
      some (v, rest)) : ∃ tail start found, Opens cs ('(' :: tail) ∧
      (∀ word middle, name cs = some (word, middle) → kind = some word) ∧
      afterBlanks? .outside tail = some start ∧
      sequence (items.map part) start = some (found, ')' :: rest) := by
  have bracket {cs : List Char} {found : List Value}
      (read : tuple levels (items.map part) cs = some (found, rest)) : ∃ tail start,
      cs = '(' :: tail ∧ afterBlanks? .outside tail = some start ∧
      sequence (items.map part) start = some (found, ')' :: rest) := by
    obtain ⟨_, _, guarded, behind⟩ := bind_eq_some read
    obtain ⟨-, rfl⟩ := guard_eq_some guarded
    obtain ⟨_, tail, opened, behind⟩ := bind_eq_some behind
    obtain ⟨_, start, blank, behind⟩ := bind_eq_some behind
    obtain ⟨_, _, items, behind⟩ := bind_eq_some behind
    obtain ⟨_, _, closed, done⟩ := bind_eq_some behind
    cases done
    rw [take_eq_some closed] at items
    exact ⟨tail, start, take_eq_some opened, blanks_eq_some blank, items⟩
  cases kind with
  | none =>
    obtain ⟨found, _, read, done⟩ := bind_eq_some read
    cases done
    obtain ⟨tail, start, rfl, begins, items⟩ := bracket read
    exact ⟨tail, start, found, .bare, fun _ _ named => (by cases named), begins, items⟩
  | some kind =>
    obtain ⟨_, _, choose, behind⟩ := bind_eq_some read
    obtain ⟨found, _, read, done⟩ := bind_eq_some behind
    cases done
    obtain ⟨tail, start, rfl, begins, items⟩ := bracket read
    rcases optionalName_eq_some choose with named | ⟨noName, rfl⟩
    · refine ⟨tail, start, found, .named named (visible_cons tail (by decide)), ?_, begins, items⟩
      intro word middle again
      rw [named] at again
      cases again
      rfl
    · exact ⟨tail, start, found, .bare, fun _ _ named => (by cases named), begins, items⟩

theorem record_eq_some_iff {kind : String} {forms : List (String × Form)} :
    valueOf extensions levels inner part variantPart (.record kind forms) cs = some (v, rest) ↔
      ∃ middle start found, optionalName kind cs = some ((), middle) ∧
        afterBlanks? .outside middle = some start ∧
        fields levels forms part (skip extensions (levels - 2)) start = some (found, rest) ∧
        v = .record none found := by
  constructor
  · intro read
    obtain ⟨_, middle, choose, behind⟩ := bind_eq_some read
    obtain ⟨_, start, blank, behind⟩ := bind_eq_some behind
    obtain ⟨found, _, all, done⟩ := bind_eq_some behind
    cases done
    exact ⟨middle, start, found, choose, blanks_eq_some blank, all, rfl⟩
  · rintro ⟨middle, start, found, choose, after, all, rfl⟩
    rw [valueOf, bind_eq choose, bind_eq (blanks_eq after), bind_eq all]
    rfl

theorem fields_opening {forms : List (String × Form)} {beyond : Reader Unit}
    {found : List (String × Value)}
    (read : fields levels forms part beyond cs = some (found, rest)) :
    ∃ tail, cs = '(' :: tail := by
  obtain ⟨_, brackets, -⟩ := fields_eq_some read
  obtain ⟨tail, _, front, _⟩ := bracketed_eq_some brackets
  exact ⟨tail, front⟩

theorem variants_eq_some {kinds : List (String × List (String × Form))}
    (read : valueOf extensions levels inner part variantPart (.variants kinds) cs =
      some (v, rest)) : ∃ kind forms middle tail found, name cs = some (kind, middle) ∧
      afterBlanks? .outside middle = some ('(' :: tail) ∧ kinds.lookup kind = some forms ∧
      fields (levels - 1) forms variantPart (skip extensions (levels - 3)) ('(' :: tail) =
        some (found, rest) := by
  obtain ⟨_, _, guarded, behind⟩ := bind_eq_some read
  obtain ⟨-, rfl⟩ := guard_eq_some guarded
  obtain ⟨kind, middle, named, behind⟩ := bind_eq_some behind
  obtain ⟨_, start, blank, behind⟩ := bind_eq_some behind
  cases listed : kinds.lookup kind with
  | none =>
    rw [listed] at behind
    cases behind
  | some forms =>
    rw [listed] at behind
    obtain ⟨found, _, all, done⟩ := bind_eq_some behind
    cases done
    obtain ⟨tail, rfl⟩ := fields_opening all
    exact ⟨kind, forms, middle, tail, found, named, blanks_eq_some blank, listed, all⟩

theorem simple_valueOf {form : Form} (scalar : form.Scalar) :
    Simple (valueOf extensions levels inner part variantPart form) := by
  intro cs v rest read
  cases scalar with
  | float =>
    obtain ⟨x, _, read, done⟩ := bind_eq_some read
    cases done
    exact .inl (run_float read)
  | natural width =>
    obtain ⟨n, _, read, done⟩ := bind_eq_some read
    cases done
    exact .inl (run_naturalBelow read)
  | string =>
    obtain ⟨text, _, read, done⟩ := bind_eq_some read
    cases done
    exact .inr ⟨text, read⟩

end

theorem opensRecord_simple {tail start : List Char} {c : Char} {record : Bool}
    (kind : opensRecord (c :: tail) = some (record, other))
    (begins : afterBlanks? .outside tail = some start)
    (first : Run start rest ∨ ∃ text, string start = some (text, rest)) (ends : Ends rest) :
    record = false := by
  obtain ⟨⟨_, inside⟩, blank, kind⟩ := Option.bind_eq_some_iff.mp kind
  have blank := blanks_eq_some blank
  rw [List.drop_one, List.tail_cons, begins] at blank
  cases blank
  dsimp only at kind
  cases found : name start with
  | none =>
    rw [found] at kind
    cases kind
    rfl
  | some read =>
    obtain ⟨word, middle⟩ := read
    rw [found] at kind
    obtain ⟨⟨_, behind⟩, blank, kind⟩ := Option.bind_eq_some_iff.mp kind
    have blank := blanks_eq_some blank
    cases kind
    rcases first with run | ⟨text, quoted⟩
    · have noRaw (tail : List Char) : start ≠ 'r' :: '#' :: tail :=
        fun front => run_raw_absurd run ends front (by simp)
      obtain rfl := name_of_run run ends.noRun noRaw found
      obtain ⟨d, more, after, mark⟩ := ends
      rw [blank] at after
      cases after
      have all : ∀ d ∈ [',', ')', ']', '}'], d ≠ ':' := by simp
      simpa using all d mark
    · rw [name_of_string quoted] at found
      cases found

/-! ## All levels -/

theorem mem_of_lookup {γ : Type} {entries : List (String × γ)} {key : String} {x : γ}
    (found : entries.lookup key = some x) : (key, x) ∈ entries := by
  obtain ⟨_, _, rfl, _⟩ := List.lookup_eq_some_iff.mp found
  exact List.mem_append_right _ List.mem_cons_self

/-- Readers by form that are in step with passing over. -/
structure InStep (extensions : Extensions) (reader : Form → Reader Value) : Prop where
  alongside : ∀ {form : Form}, form.Regular → ∀ levels,
    Alongside (reader form) (skip extensions levels)
  simple : ∀ {form : Form}, form.Scalar → Simple (reader form)
  closes : ∀ form rest, reader form (')' :: rest) = none

theorem inStep_failure (extensions : Extensions) : InStep extensions fun _ => failure where
  alongside _ _ := fun _ _ _ _ _ read => by cases read
  simple _ := fun _ _ _ read => by cases read
  closes _ _ := rfl

namespace InStep

variable {levels : Nat} {inner part variantPart : Form → Reader Value}
  (innerStep : InStep extensions inner) (partStep : InStep extensions part)
  (variantStep : InStep extensions variantPart)

include innerStep in
theorem valueOf_closes (form : Form) (rest : List Char) :
    valueOf extensions levels inner part variantPart form (')' :: rest) = none := by
  have noOpens {tail : List Char} (opens : Opens (')' :: rest) ('(' :: tail)) : False := by
    cases opens with
    | named read => cases read
  rw [Option.eq_none_iff_forall_ne_some]
  rintro ⟨v, other⟩ read
  have scalar (scalar : form.Scalar) : False := by
    rcases simple_valueOf scalar read with run | ⟨text, quoted⟩
    · obtain ⟨c, more, front, plain⟩ := run.head
      cases front
      cases plain
    · cases quoted
  cases form with
  | float => exact scalar .float
  | natural width => exact scalar (.natural width)
  | string => exact scalar .string
  | bool =>
    obtain ⟨_, _, took, behind⟩ := bind_eq_some read
    cases took
    cases behind
  | choice =>
    obtain ⟨_, _, guarded, behind⟩ := bind_eq_some read
    obtain ⟨-, rfl⟩ := guard_eq_some guarded
    cases behind
  | option form =>
    obtain ⟨found, _, present, _⟩ := bind_eq_some read
    cases option_eq_some present with
    | absent front | present front | bare front => cases front
    | unmarked _ read =>
      rw [innerStep.closes] at read
      cases read
  | list form =>
    obtain ⟨found, _, brackets, _⟩ := bind_eq_some read
    obtain ⟨_, _, front, _⟩ := bracketed_eq_some brackets
    cases front
  | tuple kind items =>
    obtain ⟨_, _, _, opens, _⟩ := tuple_eq_some read
    exact noOpens opens
  | record kind forms =>
    obtain ⟨_, _, _, choose, after, fields, _⟩ := record_eq_some_iff.mp read
    obtain ⟨tail, rfl⟩ := fields_opening fields
    rcases optionalName_eq_some choose with named | ⟨-, rfl⟩
    · cases named
    · rw [visible_cons rest (by decide)] at after
      cases after
  | variants kinds =>
    obtain ⟨_, _, _, _, _, named, _⟩ := variants_eq_some read
    cases named

include innerStep in
theorem option_valueOf {form : Form} (scalar : form.Scalar) (levels' : Nat) :
    Alongside
      (valueOf extensions levels inner part variantPart (.option form))
      (skip extensions levels') := by
  intro cs v _ rest other read passed ends ends'
  obtain ⟨found, middle, present, done⟩ := bind_eq_some read
  have same : middle = rest := by cases found <;> cases done <;> rfl
  have simple := innerStep.simple scalar
  exact option_alongside simple.alongside simple (same ▸ present) passed ends ends'

include partStep

theorem tuple_valueOf {kind : Option String} {first : Form} {items : List Form}
    (unreserved : ∀ name ∈ kind, name ∉ reserved) (scalar : first.Scalar)
    (inside : ∀ form ∈ first :: items, form.Regular) (levels' : Nat) :
    Alongside
      (valueOf extensions levels inner part variantPart (.tuple kind (first :: items)))
      (skip extensions levels') := by
  intro cs v _ rest other read passed ends ends'
  obtain ⟨tail, start, found, opens, expected, begins, items⟩ := tuple_eq_some read
  have plain (word : String) (middle : List Char) (named : name cs = some (word, middle)) :
      word ∉ reserved := unreserved word (expected word middle named)
  rw [skip_eq] at passed
  obtain ⟨x, middle, here, stops⟩ := sequence_first items
  rcases (skips passed).round_eq opens plain with rfl | ⟨record, others, kind, brackets⟩
  · have visible : Visible (')' :: other) := visible_cons other (by decide)
    rw [visible] at begins
    cases begins
    rw [partStep.closes] at here
    cases here
  · obtain rfl := opensRecord_simple kind begins (partStep.simple scalar here) stops
    obtain ⟨_, _, front, begins', parts⟩ := bracketed_eq_some brackets
    cases front
    rw [begins] at begins'
    cases begins'
    rw [sequence_alongside ?_ ?_ items parts]
    · intro reader member
      obtain ⟨form, listed, rfl⟩ := List.mem_map.mp member
      have both := alongside_skipPart (partStep.alongside (inside form listed)) levels'
      exact both.of_refines (.refl _) (refines_guarded _ _)
    · intro reader member rest
      obtain ⟨form, listed, rfl⟩ := List.mem_map.mp member
      exact partStep.closes form rest

theorem fields_valueOf {forms : List (String × Form)}
    (inside : ∀ field ∈ forms, field.2.Regular) {tail : List Char} {levels levels' deeper : Nat}
    {found : List (String × Value)} (opens : Opens cs ('(' :: tail))
    (plain : ∀ word middle, name cs = some (word, middle) → word ∉ reserved)
    (read : fields levels forms part (skip extensions deeper) ('(' :: tail) = some (found, rest))
    (passed : skip extensions levels' cs = some ((), other)) : rest = other := by
  rw [skip_eq] at passed
  refine fields_alongside ?_ ?_ read ((skips passed).round_eq opens plain)
  · intro key form listed
    exact alongside_skipPart (partStep.alongside (inside _ (mem_of_lookup listed))) levels'
  · refine alongside_skipPart (fun levels => ?_) levels'
    intro cs _ _ rest other passed again _ _
    rw [skip_unique passed again]

include innerStep variantStep

theorem valueOf (levels : Nat) :
    InStep extensions (Reader.valueOf extensions levels inner part variantPart) where
  simple := simple_valueOf
  closes := valueOf_closes innerStep
  alongside := by
    intro form regular levels'
    cases regular with
    | scalar scalar => exact (simple_valueOf scalar).alongside levels'
    | bool =>
      intro cs v _ rest other read passed ends ends'
      obtain ⟨_, _, took, behind⟩ := bind_eq_some read
      rcases took_eq_some took with ⟨rfl, front⟩ | ⟨rfl, _, rfl⟩
      · cases behind
        exact word_alongside (by decide) (by simp [continuesRawWord, continuesWord]) front ends
          passed ends'
      · rw [if_neg Bool.false_ne_true] at behind
        obtain ⟨_, _, took, behind⟩ := bind_eq_some behind
        obtain ⟨_, _, guarded, done⟩ := bind_eq_some behind
        obtain ⟨rfl, rfl⟩ := guard_eq_some guarded
        cases done
        rcases took_eq_some took with ⟨-, front⟩ | ⟨no, -⟩
        · exact word_alongside (by decide) (by simp [continuesRawWord, continuesWord]) front ends
            passed ends'
        · cases no
    | choice =>
      intro cs v _ rest other read passed ends ends'
      obtain ⟨_, _, guarded, behind⟩ := bind_eq_some read
      obtain ⟨-, rfl⟩ := guard_eq_some guarded
      obtain ⟨word, _, named, done⟩ := bind_eq_some behind
      cases done
      exact name_alongside levels' named passed ends ends'
    | option scalar => exact option_valueOf innerStep scalar levels'
    | list inside =>
      intro cs v _ rest other read passed ends ends'
      obtain ⟨found, _, brackets, done⟩ := bind_eq_some read
      cases done
      obtain ⟨tail, _, rfl, _⟩ := bracketed_eq_some brackets
      rw [skip_eq] at passed
      obtain ⟨others, again⟩ := (skips passed).square_eq
      have both := alongside_skipPart (partStep.alongside inside) levels'
      rw [bracketed_alongside both (by simp) brackets again]
    | tuple unreserved scalar inside =>
      exact tuple_valueOf partStep unreserved scalar inside levels'
    | record unreserved inside =>
      intro cs v _ rest other read passed ends ends'
      obtain ⟨middle, _, found, choose, after, fields, -⟩ := record_eq_some_iff.mp read
      obtain ⟨tail, rfl⟩ := fields_opening fields
      obtain ⟨opens, plain⟩ : Opens cs ('(' :: tail) ∧
          ∀ word middle, name cs = some (word, middle) → word ∉ reserved := by
        rcases optionalName_eq_some choose with named | ⟨noName, rfl⟩
        · refine ⟨.named named after, fun word middle again => ?_⟩
          rw [named] at again
          cases again
          exact unreserved
        · rw [skip_eq] at passed
          rw [(skips passed).visible] at after
          cases after
          exact ⟨.bare, fun _ _ named => by cases named⟩
      rw [fields_valueOf partStep inside opens plain fields passed]
    | variants unreserved inside =>
      intro cs v _ rest other read passed ends ends'
      obtain ⟨kind, forms, middle, tail, found, named, after, listed, fields⟩ :=
        variants_eq_some read
      have member := mem_of_lookup listed
      rw [fields_valueOf variantStep (inside _ member) (.named named after) ?_ fields passed]
      intro word middle again
      rw [named] at again
      cases again
      exact unreserved _ member

end InStep

/-- A value is read in step with passing over, whatever the levels of nesting. -/
theorem inStep_value (extensions : Extensions) (levels : Nat) :
    InStep extensions (value extensions levels) := by
  have failing := inStep_failure extensions
  induction levels using Nat.strongRecOn with
  | ind levels ih =>
    rcases levels with _ | _ | _ | inside
    · exact failing.valueOf failing failing 0
    · exact (ih 0 (by omega)).valueOf failing failing 1
    · exact (ih 1 (by omega)).valueOf (ih 0 (by omega)) failing 2
    · exact (ih (inside + 2) (by omega)).valueOf (ih (inside + 1) (by omega))
        (ih inside (by omega)) (inside + 3)

end Reader

end Parametric.Ron
