import Parametric.Proofs.Ron.Skipping
/-! Readers that read alongside one another.

A value that is read by its form and a value that is passed over end at the same place, if each ends
before a comma or a closing bracket. So a bracket has the same parts for a reader that knows some of
them and for one that knows others.
-/

set_option autoImplicit false

namespace Parametric.Ron.Reader

variable {α β : Type} {cs rest other : List Char}

/-- Wherever both readers read a value up to where values end, it is at the same place, up to
blanks. -/
def Alongside (reader : Reader α) (beside : Reader β) : Prop :=
  ∀ ⦃cs x y rest other⦄, reader cs = some (x, rest) → beside cs = some (y, other) →
    Ends rest → Ends other → afterBlanks? .outside rest = afterBlanks? .outside other

theorem ends_comma {tail : List Char} (after : afterBlanks? .outside rest = some (',' :: tail)) :
    Ends rest :=
  ⟨',', tail, after, by simp⟩

section

variable {reader : Reader α} {beside : Reader β} {closing : Char}
  (isClosing : closing ∈ [')', ']', '}'])
include isClosing

theorem ends_closing {tail : List Char}
    (after : afterBlanks? .outside rest = some (closing :: tail)) : Ends rest :=
  ⟨closing, tail, after, List.mem_cons_of_mem _ isClosing⟩

theorem parts_beside (both : Alongside reader beside) {x : α} {middle : List Char}
    {others : List β} (goesOn : cs.head? ≠ some closing) (read : reader cs = some (x, middle))
    (passed : Parts closing beside cs others (closing :: other)) :
    (∀ tail next, afterBlanks? .outside middle = some (',' :: tail) →
      afterBlanks? .outside tail = some next →
        ∃ later, Parts closing beside next later (closing :: other)) ∧
      ∀ rest, afterBlanks? .outside middle = some (closing :: rest) → rest = other := by
  have noComma : (',' : Char) ≠ closing := by
    rintro rfl
    simp at isClosing
  cases passed with
  | nil => exact absurd rfl goesOn
  | last _ read' after' =>
    refine ⟨fun tail next after _ => ?_, fun rest after => ?_⟩
    · have same := both read read' (ends_comma after) (ends_closing isClosing after')
      rw [after, after'] at same
      cases same
      exact absurd rfl noComma
    · have same := both read read' (ends_closing isClosing after) (ends_closing isClosing after')
      rw [after, after'] at same
      cases same
      rfl
  | cons _ read' after' begins' later' =>
    refine ⟨fun tail next after begins => ?_, fun rest after => ?_⟩
    · have same := both read read' (ends_comma after) (ends_comma after')
      rw [after, after'] at same
      cases same
      rw [begins] at begins'
      cases begins'
      exact ⟨_, later'⟩
    · have same := both read read' (ends_closing isClosing after) (ends_comma after')
      rw [after, after'] at same
      cases same
      exact absurd rfl noComma

theorem parts_alongside (both : Alongside reader beside) {found : List α} {others : List β}
    (parts : Parts closing reader cs found (closing :: rest))
    (passed : Parts closing beside cs others (closing :: other)) : rest = other := by
  generalize ends : closing :: rest = last at parts
  induction parts generalizing others with
  | nil closes =>
    subst ends
    cases passed with
    | nil => rfl
    | last goesOn | cons goesOn => exact absurd closes goesOn
  | last goesOn read after =>
    subst ends
    exact (parts_beside isClosing both goesOn read passed).2 rest after
  | cons goesOn read after begins _ ih =>
    obtain ⟨later, passed⟩ := (parts_beside isClosing both goesOn read passed).1 _ _ after begins
    exact ih passed ends

end

theorem Alongside.of_refines {reader reader' : Reader α} {beside beside' : Reader β}
    (both : Alongside reader' beside')
    (less : Refines reader reader') (less' : Refines beside beside') :
    Alongside reader beside := by
  intro cs x y rest other read read' ends ends'
  exact both (less cs _ read) (less' cs _ read') ends ends'

theorem refines_guarded (p : Prop) [Decidable p] (reader : Reader α) :
    Refines (do guard p; reader) reader := by
  rintro cs ⟨x, rest⟩ read
  obtain ⟨_, _, guarded, read⟩ := bind_eq_some read
  obtain ⟨-, rfl⟩ := guard_eq_some guarded
  exact read

/-- A bracket is passed over up to where it is read. -/
theorem bracketed_alongside {reader : Reader α} {beside : Reader β}
    (both : Alongside reader beside) {levels levels' : Nat} {opening closing : Char}
    (isClosing : closing ∈ [')', ']', '}']) {found : List α} {others : List β}
    (read : bracketed levels opening closing reader cs = some (found, rest))
    (passed : bracketed levels' opening closing beside cs = some (others, other)) :
    rest = other := by
  obtain ⟨tail, inside, front, begins, parts⟩ := bracketed_eq_some read
  obtain ⟨tail', inside', front', begins', parts'⟩ := bracketed_eq_some passed
  rw [front] at front'
  cases front'
  rw [begins] at begins'
  cases begins'
  have guarded := both.of_refines (refines_guarded (1 < levels) reader)
    (refines_guarded (1 < levels') beside)
  exact parts_alongside isClosing guarded parts parts'

theorem sequence_first {reader : Reader α} {readers : List (Reader α)} {found : List α}
    (read : sequence (reader :: readers) cs = some (found, ')' :: rest)) :
    ∃ x middle, reader cs = some (x, middle) ∧ Ends middle := by
  cases readers with
  | nil =>
    obtain ⟨x, middle, first, behind⟩ := bind_eq_some read
    obtain ⟨comma, _, took, done⟩ := bind_eq_some behind
    cases done
    exact ⟨x, middle, first, ends_of_tookComma took⟩
  | cons second readers =>
    obtain ⟨x, middle, first, behind⟩ := bind_eq_some read
    obtain ⟨comma, _, took, behind⟩ := bind_eq_some behind
    obtain ⟨_, _, guarded, _⟩ := bind_eq_some behind
    obtain ⟨isComma, -⟩ := guard_eq_some guarded
    rcases tookComma_eq_some took with ⟨-, tail, after, -⟩ | ⟨noComma, -⟩
    · exact ⟨x, middle, first, ends_comma after⟩
    · rw [noComma] at isComma
      cases isComma

theorem sequence_alongside {readers : List (Reader α)} {beside : Reader β}
    (both : ∀ reader ∈ readers, Alongside reader beside)
    (goesOn : ∀ reader ∈ readers, ∀ rest, reader (')' :: rest) = none)
    {found : List α} {others : List β}
    (read : sequence readers cs = some (found, ')' :: rest))
    (passed : Parts ')' beside cs others (')' :: other)) : rest = other := by
  have isClosing : (')' : Char) ∈ [')', ']', '}'] := by simp
  induction readers generalizing cs found others with
  | nil =>
    cases read
    cases passed with
    | nil => rfl
    | last goesOn | cons goesOn => exact absurd rfl goesOn
  | cons reader readers ih =>
    have both' := both reader List.mem_cons_self
    -- No item is read where the bracket closes.
    have opens {x : α} {middle : List Char} (first : reader cs = some (x, middle)) :
        cs.head? ≠ some ')' := by
      intro closes
      obtain ⟨more, rfl⟩ := List.head?_eq_some_iff.mp closes
      rw [goesOn reader List.mem_cons_self] at first
      cases first
    cases readers with
    | nil =>
      obtain ⟨x, middle, first, behind⟩ := bind_eq_some read
      obtain ⟨comma, _, took, done⟩ := bind_eq_some behind
      cases done
      obtain ⟨more, closes⟩ := parts_beside isClosing both' (opens first) first passed
      rcases tookComma_eq_some took with ⟨-, tail, after, begins⟩ | ⟨-, after, -⟩
      · obtain ⟨later, passed⟩ := more tail _ after begins
        cases passed with
        | nil => rfl
        | last goesOn | cons goesOn => exact absurd rfl goesOn
      · exact closes rest after
    | cons second readers =>
      obtain ⟨x, middle, first, behind⟩ := bind_eq_some read
      obtain ⟨comma, next, took, behind⟩ := bind_eq_some behind
      obtain ⟨_, _, guarded, behind⟩ := bind_eq_some behind
      obtain ⟨isComma, rfl⟩ := guard_eq_some guarded
      obtain ⟨xs, _, items, done⟩ := bind_eq_some behind
      cases done
      obtain ⟨more, -⟩ := parts_beside isClosing both' (opens first) first passed
      rcases tookComma_eq_some took with ⟨-, tail, after, begins⟩ | ⟨noComma, -⟩
      · obtain ⟨later, passed⟩ := more tail next after begins
        exact ih (fun other member => both other (List.mem_cons_of_mem _ member))
          (fun other member => goesOn other (List.mem_cons_of_mem _ member)) items passed
      · rw [noComma] at isComma
        cases isComma

/-! ## Fields -/

/-- A key and a colon stand before the value that starts here. -/
def Keyed (cs : List Char) (key : String) (start : List Char) : Prop :=
  ∃ middle tail, name cs = some (key, middle) ∧ afterBlanks? .outside middle = some (':' :: tail) ∧
    afterBlanks? .outside tail = some start

theorem Keyed.unique {key key' : String} {start start' : List Char} (keyed : Keyed cs key start)
    (again : Keyed cs key' start') : key = key' ∧ start = start' := by
  obtain ⟨middle, tail, read, colon, begins⟩ := keyed
  obtain ⟨middle', tail', read', colon', begins'⟩ := again
  rw [read] at read'
  cases read'
  rw [colon] at colon'
  cases colon'
  rw [begins] at begins'
  cases begins'
  exact ⟨rfl, rfl⟩

variable {forms : List (String × Form)} {value : Form → Reader Value} {beyond part : Reader Unit}

theorem field_eq_some {found : Option (String × Value)}
    (read : field forms value beyond cs = some (found, rest)) : ∃ key start, Keyed cs key start ∧
      ((∃ form v, forms.lookup key = some form ∧ value form start = some (v, rest) ∧
          found = some (key, v)) ∨
        forms.lookup key = none ∧ beyond start = some ((), rest) ∧ found = none) := by
  obtain ⟨key, middle, named, behind⟩ := bind_eq_some read
  obtain ⟨_, _, blank, behind⟩ := bind_eq_some behind
  obtain ⟨_, tail, colon, behind⟩ := bind_eq_some behind
  obtain ⟨_, start, begins, behind⟩ := bind_eq_some behind
  have blank := blanks_eq_some blank
  rw [take_eq_some colon] at blank
  refine ⟨key, start, ⟨middle, tail, named, blank, blanks_eq_some begins⟩, ?_⟩
  cases listed : forms.lookup key with
  | some form =>
    rw [listed] at behind
    obtain ⟨v, _, inside, done⟩ := bind_eq_some behind
    cases done
    exact .inl ⟨form, v, rfl, inside, rfl⟩
  | none =>
    rw [listed] at behind
    obtain ⟨_, _, passed, done⟩ := bind_eq_some behind
    cases done
    exact .inr ⟨rfl, passed, rfl⟩

theorem entry_eq_some {x : Unit}
    (read : entry (do let _ ← name) part cs = some (x, rest)) :
    ∃ key start, Keyed cs key start ∧ part start = some (x, rest) := by
  obtain ⟨_, middle, named, behind⟩ := bind_eq_some read
  obtain ⟨key, _, named, done⟩ := bind_eq_some named
  cases done
  obtain ⟨_, _, blank, behind⟩ := bind_eq_some behind
  obtain ⟨_, tail, colon, behind⟩ := bind_eq_some behind
  obtain ⟨_, start, begins, behind⟩ := bind_eq_some behind
  have blank := blanks_eq_some blank
  rw [take_eq_some colon] at blank
  exact ⟨key, start, ⟨middle, tail, named, blank, blanks_eq_some begins⟩, behind⟩

theorem opensRecord_keyed {tail inside start : List Char} {key : String} {c : Char}
    (begins : afterBlanks? .outside tail = some inside) (keyed : Keyed inside key start) :
    opensRecord (c :: tail) = some (true, c :: tail) := by
  obtain ⟨middle, _, read, colon, _⟩ := keyed
  have blank : blanks ((c :: tail).drop 1) = some ((), inside) := blanks_eq begins
  rw [opensRecord, blank]
  dsimp only [bind, Option.bind]
  rw [read]
  dsimp only
  rw [blanks_eq colon]
  rfl

theorem fields_eq_some {levels : Nat} {found : List (String × Value)}
    (read : fields levels forms value beyond cs = some (found, rest)) : ∃ all,
      bracketed levels '(' ')' (field forms value beyond) cs = some (all, rest) ∧
      found = all.filterMap id ∧ (found.map (·.1)).Nodup := by
  obtain ⟨all, _, brackets, behind⟩ := bind_eq_some read
  obtain ⟨_, _, guarded, done⟩ := bind_eq_some behind
  obtain ⟨distinct, rfl⟩ := guard_eq_some guarded
  cases done
  exact ⟨all, brackets, rfl, distinct⟩

/-- The fields of a record end where the bracket is passed over. -/
theorem fields_alongside (both : ∀ key form, forms.lookup key = some form →
      Alongside (value form) part)
    (others : Alongside beyond part) {levels levels' : Nat} {tail : List Char}
    {found : List (String × Value)}
    (read : fields levels forms value beyond ('(' :: tail) = some (found, rest))
    (passed : tail = ')' :: other ∨ ∃ record found,
      opensRecord ('(' :: tail) = some (record, '(' :: tail) ∧
        bracketed levels' '(' ')' (if record then entry (do let _ ← name) part else part)
          ('(' :: tail) = some (found, other)) : rest = other := by
  obtain ⟨all, brackets, -⟩ := fields_eq_some read
  obtain ⟨_, inside, front, begins, parts⟩ := bracketed_eq_some brackets
  cases front
  have fieldwise : Alongside (field forms value beyond)
      (entry (do let _ ← name) part) := by
    intro cs x y rest other read passed ends ends'
    obtain ⟨key, start, keyed, asked⟩ := field_eq_some read
    obtain ⟨key', start', keyed', passed⟩ := entry_eq_some passed
    obtain ⟨rfl, rfl⟩ := keyed.unique keyed'
    rcases asked with ⟨form, v, listed, inside, -⟩ | ⟨-, skipped, -⟩
    · exact both key form listed inside passed ends ends'
    · exact others skipped passed ends ends'
  rcases passed with rfl | ⟨record, found, kind, passed⟩
  · have visible : Visible (')' :: other) := visible_cons other (by decide)
    rw [visible] at begins
    cases begins
    cases parts with
    | nil => rfl
    | last goesOn | cons goesOn => exact absurd rfl goesOn
  · -- With a field, the bracket opens a record for both.
    have opens {cs middle : List Char} {x : Option (String × Value)}
        (begins : afterBlanks? .outside tail = some cs)
        (first : field forms value beyond cs = some (x, middle)) : record = true := by
      obtain ⟨key, start, keyed, -⟩ := field_eq_some first
      rw [opensRecord_keyed begins keyed] at kind
      cases kind
      rfl
    cases parts with
    | nil =>
      obtain ⟨_, _, front, begins', parts⟩ := bracketed_eq_some passed
      cases front
      rw [begins] at begins'
      cases begins'
      cases parts with
      | nil => rfl
      | last goesOn | cons goesOn => exact absurd rfl goesOn
    | last _ first | cons _ first =>
      obtain ⟨_, _, guarded, first⟩ := bind_eq_some first
      obtain ⟨-, rfl⟩ := guard_eq_some guarded
      obtain rfl := opens begins first
      exact bracketed_alongside fieldwise (by simp) brackets passed

end Parametric.Ron.Reader
