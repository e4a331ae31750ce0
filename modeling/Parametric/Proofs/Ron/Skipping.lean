import Parametric.Proofs.Ron.Extent
/-! How a value is passed over.

A reader that passes over a value goes by its first characters. With more levels of nesting left it
passes over all that it does with fewer, and what it passes over is the same.
-/

set_option autoImplicit false

namespace Parametric.Ron.Reader

/-! ## More levels -/

/-- What one reader reads another one reads as well. -/
def Refines {α : Type} (reader other : Reader α) : Prop :=
  ∀ cs found, reader cs = some found → other cs = some found

section

variable {α β : Type} {reader other : Reader α}

theorem Refines.refl (reader : Reader α) : Refines reader reader :=
  fun _ _ read => read

theorem Refines.bind (refines : Refines reader other) {next later : α → Reader β}
    (behind : ∀ x, Refines (next x) (later x)) : Refines (reader >>= next) (other >>= later) := by
  rintro cs ⟨y, rest⟩ read
  obtain ⟨x, middle, first, second⟩ := bind_eq_some read
  rw [bind_eq (refines cs _ first)]
  exact behind x middle _ second

theorem Refines.behind (reader : Reader α) {next later : α → Reader β}
    (behind : ∀ x, Refines (next x) (later x)) : Refines (reader >>= next) (reader >>= later) :=
  (refl reader).bind behind

theorem Refines.before (refines : Refines reader other) (next : α → Reader β) :
    Refines (reader >>= next) (other >>= next) :=
  refines.bind fun x => refl (next x)

theorem refines_failure (other : Reader α) : Refines failure other :=
  fun _ _ read => by cases read

theorem refines_guard {p q : Prop} [Decidable p] [Decidable q] (weaker : p → q) :
    Refines (guard p) (guard q) := by
  rintro cs ⟨_, rest⟩ read
  obtain ⟨holds, rfl⟩ := guard_eq_some read
  exact guard_eq (weaker holds) cs

theorem refines_parts (refines : Refines reader other) (closing : Char) (fuel : Nat) :
    Refines (parts closing reader fuel) (parts closing other fuel) := by
  induction fuel with
  | zero => exact .refl _
  | succ fuel ih =>
    refine .behind _ fun c => ?_
    split
    · exact .refl _
    · refine refines.bind fun x => .behind _ fun comma => ?_
      split
      · exact ih.before _
      · exact .refl _

theorem refines_option (extensions : Extensions) (refines : Refines reader other) :
    Refines (option extensions reader) (option extensions other) := by
  have implicit : Refines (do guard extensions.implicitSome; return some (← reader))
      (do guard extensions.implicitSome; return some (← other)) :=
    .behind _ fun _ => refines.before _
  refine .behind _ fun absent => ?_
  split
  · exact .refl _
  · refine .behind _ fun present => ?_
    dsimp only
    split
    · refine .behind _ fun _ => .behind _ fun bracket => ?_
      split
      · exact .behind _ fun _ => refines.before _
      · exact implicit
    · exact implicit

variable {levels more : Nat}

theorem refines_bracketed (le : levels ≤ more) (refines : Refines reader other)
    (opening closing : Char) :
    Refines (bracketed levels opening closing reader) (bracketed more opening closing other) := by
  have guards (n : Nat) : Refines (guard (n < levels)) (guard (n < more)) :=
    refines_guard fun enough => Nat.lt_of_lt_of_le enough le
  refine (guards 0).bind fun _ => .behind _ fun _ => .behind _ fun _ => .behind _ fun cs =>
    (refines_parts ?_ closing _).before _
  exact (guards 1).bind fun _ => refines

theorem refines_skipOf (le : levels ≤ more) (extensions : Extensions)
    {inner inner' part part' : Reader Unit} (inside : Refines inner inner')
    (parts : Refines part part') :
    Refines (skipOf extensions levels inner part) (skipOf extensions more inner' part') := by
  have brackets (opening closing : Char) {part part' : Reader Unit} (parts : Refines part part') :=
    (refines_bracketed le parts opening closing).before fun _ => pure ()
  have entries {key key' : Reader Unit} (keys : Refines key key') :
      Refines (entry key part) (entry key' part') :=
    keys.bind fun _ => .behind _ fun _ => .behind _ fun _ => .behind _ fun _ => parts
  have round := Refines.behind opensRecord fun record => brackets '(' ')'
    (show Refines (if record then entry (do let _ ← name) part else part)
      (if record then entry (do let _ ← name) part' else part') by
      split
      · exact entries (.refl _)
      · exact parts)
  refine .behind _ fun word => ?_
  split
  · exact .refl _
  refine .behind _ fun empty => ?_
  split
  · exact .refl _
  refine .behind _ fun cs => ?_
  split
  · exact (refines_option extensions inside).before _
  refine .behind _ fun cs => ?_
  split
  · refine .behind _ fun _ => .behind _ fun _ => .behind _ fun c => ?_
    split
    · exact round.before _
    · exact .refl _
  refine .behind _ fun c => ?_
  split
  · exact round
  · exact brackets '[' ']' parts
  · exact brackets '{' '}' (entries parts)
  all_goals exact .refl _

end

variable (extensions : Extensions)

def skipInner : Nat → Reader Unit
  | inside + 1 => skip extensions inside
  | 0 => failure

def skipPart : Nat → Reader Unit
  | inside + 2 => skip extensions inside
  | _ => failure

theorem skip_eq (levels : Nat) : skip extensions levels =
    skipOf extensions levels (skipInner extensions levels) (skipPart extensions levels) := by
  rcases levels with _ | _ | inside <;> rfl

/-- What is passed over with some levels left is passed over with more. -/
theorem refines_skip {levels more : Nat} (le : levels ≤ more) :
    Refines (skip extensions levels) (skip extensions more) := by
  induction levels using Nat.strongRecOn generalizing more with
  | ind levels ih =>
    rw [skip_eq, skip_eq]
    refine refines_skipOf le extensions ?_ ?_
    · rcases levels with _ | inside
      · exact refines_failure _
      · obtain ⟨more, rfl⟩ := Nat.exists_eq_add_of_le' (show 1 ≤ more by omega)
        exact ih inside (by omega) (by omega)
    · rcases levels with _ | _ | inside
      · exact refines_failure _
      · exact refines_failure _
      · obtain ⟨more, rfl⟩ := Nat.exists_eq_add_of_le' (show 2 ≤ more by omega)
        exact ih inside (by omega) (by omega)

variable {extensions} {cs rest other : List Char}

theorem skip_unique {levels levels' : Nat} (passed : skip extensions levels cs = some ((), rest))
    (again : skip extensions levels' cs = some ((), other)) : rest = other := by
  have first := refines_skip extensions (Nat.le_max_left levels levels') cs _ passed
  have second := refines_skip extensions (Nat.le_max_right levels levels') cs _ again
  rw [first] at second
  cases second
  rfl

/-! ## By the first characters -/

inductive Opens (cs : List Char) : List Char → Prop where
  | bare : Opens cs cs
  | named {word : String} {middle rest : List Char} (read : name cs = some (word, middle))
      (after : afterBlanks? .outside middle = some rest) : Opens cs rest

/-- The ways to pass over a value. -/
inductive Skips (extensions : Extensions) (levels : Nat) (inner part : Reader Unit)
    (cs : List Char) : List Char → Prop where
  | word {word : String} (listed : word ∈ ["true", "false", "None", "inf", "-inf", "NaN"])
      (here : atWord word cs = true) : Skips extensions levels inner part cs (cs.drop word.length)
  | empty {rest : List Char} (here : cs = '(' :: ')' :: rest) :
      Skips extensions levels inner part cs rest
  | present {found : Option Unit} {rest : List Char} (here : atWord "Some" cs = true)
      (read : option extensions inner cs = some (found, rest)) :
      Skips extensions levels inner part cs rest
  | name {word : String} {middle rest : List Char} (noPresent : atWord "Some" cs = false)
      (read : name cs = some (word, middle)) (after : afterBlanks? .outside middle = some rest)
      (noBracket : rest.head? ≠ some '(') : Skips extensions levels inner part cs rest
  | round {inside rest : List Char} {record : Bool} {found : List Unit}
      (noPresent : atWord "Some" cs = false) (opens : Opens cs inside)
      (kind : opensRecord inside = some (record, inside))
      (read : bracketed levels '(' ')'
        (if record then entry (do let _ ← Reader.name) part else part) inside =
          some (found, rest)) : Skips extensions levels inner part cs rest
  | square {rest : List Char} {found : List Unit}
      (read : bracketed levels '[' ']' part cs = some (found, rest)) :
      Skips extensions levels inner part cs rest
  | curly {rest : List Char} {found : List Unit}
      (read : bracketed levels '{' '}' (entry part part) cs = some (found, rest)) :
      Skips extensions levels inner part cs rest
  | number {rest : List Char} (noPresent : atWord "Some" cs = false)
      (noName : Reader.name cs = none) (noRaw : cs.head? ≠ some 'r') (run : Run cs rest) :
      Skips extensions levels inner part cs rest
  | text {text : String} {rest : List Char} (noName : Reader.name cs = none)
      (read : string cs = some (text, rest)) : Skips extensions levels inner part cs rest
  | character {c : Char} {rest : List Char} (read : character cs = some (c, rest)) :
      Skips extensions levels inner part cs rest

theorem opensRecord_eq_some {record : Bool} (read : opensRecord cs = some (record, rest)) :
    cs = rest := by
  obtain ⟨⟨_, inside⟩, _, read⟩ := Option.bind_eq_some_iff.mp read
  dsimp only at read
  split at read
  · cases read
    rfl
  · obtain ⟨⟨_, behind⟩, _, read⟩ := Option.bind_eq_some_iff.mp read
    cases read
    rfl

theorem skips {levels : Nat} {inner part : Reader Unit}
    (passed : skipOf extensions levels inner part cs = some ((), rest)) :
    Skips extensions levels inner part cs rest := by
  obtain ⟨_, _, found, afterWord⟩ := bind_eq_some passed
  unfold tookWord at found
  split at found
  · next word found =>
    cases found
    cases afterWord
    exact .word (List.mem_of_find?_eq_some found) (List.find?_some (p := (atWord · cs)) found)
  obtain ⟨rfl, rfl⟩ := Prod.mk.inj (Option.some.inj found)
  rw [if_neg Bool.false_ne_true] at afterWord
  obtain ⟨_, _, took, afterEmpty⟩ := bind_eq_some afterWord
  rcases took_eq_some took with ⟨rfl, front⟩ | ⟨rfl, _, rfl⟩
  · cases afterEmpty
    exact .empty front
  rw [if_neg Bool.false_ne_true] at afterEmpty
  obtain ⟨_, _, got, choose⟩ := bind_eq_some afterEmpty
  obtain ⟨rfl, rfl⟩ := get_eq_some got
  split at choose
  · next here =>
    obtain ⟨found, _, present, done⟩ := bind_eq_some choose
    cases done
    exact .present here present
  next absent =>
  have noPresent := Bool.eq_false_iff.mpr absent
  have rounds {inside : List Char} {x : Unit} (opens : Opens cs inside)
      (passed : (do
        let _ ← bracketed levels '(' ')'
          (if ← opensRecord then entry (do let _ ← name) part else part)
        return : Reader Unit) inside = some (x, rest)) :
      Skips extensions levels inner part cs rest := by
    obtain ⟨record, _, kind, brackets⟩ := bind_eq_some passed
    obtain ⟨found, _, parts, done⟩ := bind_eq_some brackets
    cases done
    obtain rfl := opensRecord_eq_some kind
    exact .round noPresent opens kind parts
  obtain ⟨_, _, got, choose⟩ := bind_eq_some choose
  obtain ⟨rfl, rfl⟩ := get_eq_some got
  split at choose
  · obtain ⟨word, middle, named, afterName⟩ := bind_eq_some choose
    obtain ⟨_, behind, after, afterBlanks⟩ := bind_eq_some afterName
    obtain ⟨_, _, got, bracket⟩ := bind_eq_some afterBlanks
    obtain ⟨rfl, rfl⟩ := next?_eq_some got
    split at bracket
    · obtain ⟨_, _, round, done⟩ := bind_eq_some bracket
      cases done
      exact rounds (.named named (blanks_eq_some after)) round
    · next noBracket =>
      cases bracket
      exact .name noPresent named (blanks_eq_some after) noBracket
  next unnamed =>
  have noName : name cs = none := Option.not_isSome_iff_eq_none.mp unnamed
  obtain ⟨_, _, got, byFirst⟩ := bind_eq_some choose
  obtain ⟨first, rfl⟩ := next?_eq_some got
  split at byFirst
  · exact rounds .bare byFirst
  · obtain ⟨_, _, found, done⟩ := bind_eq_some byFirst
    cases done
    exact .square found
  · obtain ⟨_, _, found, done⟩ := bind_eq_some byFirst
    cases done
    exact .curly found
  · obtain ⟨_, _, found, done⟩ := bind_eq_some byFirst
    cases done
    exact .number noPresent noName (by rw [first]; decide) (run_float found)
  · obtain ⟨_, _, found, done⟩ := bind_eq_some byFirst
    cases done
    exact .text noName found
  · obtain ⟨_, _, found, done⟩ := bind_eq_some byFirst
    cases done
    exact .text noName found
  · obtain ⟨_, _, found, done⟩ := bind_eq_some byFirst
    cases done
    exact .character found
  · next noRaw _ =>
    exact .number noPresent noName (fun raw => noRaw (first.symm.trans raw)) (run_anyNumber byFirst)

theorem head?_of_atWord {word : String} {c : Char} (first : word.toList.head? = some c)
    (here : atWord word cs = true) : cs.head? = some c := by
  obtain ⟨tail, rfl, -⟩ := atWord_front here
  obtain ⟨more, front⟩ := List.head?_eq_some_iff.mp first
  rw [front]
  rfl

theorem head?_of_listed {word : String}
    (listed : word ∈ ["true", "false", "None", "inf", "-inf", "NaN"])
    (here : atWord word cs = true) : ∃ c ∈ ['t', 'f', 'N', 'i', '-'], cs.head? = some c := by
  have all : ∀ word ∈ ["true", "false", "None", "inf", "-inf", "NaN"],
      ∃ c ∈ ['t', 'f', 'N', 'i', '-'], word.toList.head? = some c := by simp
  obtain ⟨c, member, first⟩ := all word listed
  exact ⟨c, member, head?_of_atWord first here⟩

theorem head_of_name {word : String} (read : name cs = some (word, rest)) :
    ∃ c more, cs = c :: more ∧ continuesRawWord c = true := by
  cases named read with
  | plain front starts all text noRun =>
    exact ⟨_, _, front, by simp [continuesRawWord, continuesWord_of_startsWord starts]⟩
  | raw front => exact ⟨_, _, front, rfl⟩

def reserved : List String :=
  ["true", "false", "None", "inf", "-inf", "NaN", "Some"]

theorem head?_of_reserved {listed : String} (member : listed ∈ reserved) :
    ∃ c ∈ ['t', 'f', 'N', 'i', '-', 'S'], listed.toList.head? = some c ∧
      (startsWord c = true → listed.toList.all continuesWord = true) := by
  have words : ∀ listed ∈ reserved, ∃ c ∈ ['t', 'f', 'N', 'i', '-', 'S'],
      listed.toList.head? = some c ∧
        (startsWord c = true → listed.toList.all continuesWord = true) := by
    simp [reserved, startsWord, continuesWord]
  exact words listed member

theorem atWord_of_raw {tail : List Char} (front : cs = 'r' :: '#' :: tail) {listed : String}
    (member : listed ∈ reserved) : atWord listed cs = false := by
  rw [Bool.eq_false_iff]
  intro here
  obtain ⟨c, letter, first, -⟩ := head?_of_reserved member
  have same := head?_of_atWord first here
  rw [front] at same
  cases same
  simp at letter

theorem atWord_of_name {word : String} (read : name cs = some (word, rest))
    (other : word ∉ reserved) {listed : String} (member : listed ∈ reserved) :
    atWord listed cs = false := by
  cases named read with
  | plain front starts all text noRun =>
    rw [Bool.eq_false_iff]
    intro here
    obtain ⟨c, -, first, plain⟩ := head?_of_reserved member
    have same := head?_of_atWord first here
    rw [front] at same
    cases same
    have plain := List.all_eq_true.mp (plain starts)
    -- Both words are what the text starts with, as far as the characters of words go.
    obtain ⟨tail, whole, stops⟩ := atWord_front here
    have same : listed.toList = word.toList := by
      rw [← takeWhile_stops plain stops, ← whole, text, takeWhile_stops all noRun.noWord]
    exact other (String.toList_inj.mp same ▸ member)
  | raw front => exact atWord_of_raw front member

theorem character_front {c : Char} (read : character cs = some (c, rest)) :
    ∃ tail, cs = '\'' :: tail := by
  unfold character at read
  split at read
  · exact ⟨_, rfl⟩
  · exact ⟨_, rfl⟩
  · cases read

namespace Skips

variable {levels : Nat} {inner part : Reader Unit}

/-- A value begins with a character of a run, an opening bracket or a quotation mark. -/
theorem head (skips : Skips extensions levels inner part cs rest) :
    ∃ c more, cs = c :: more ∧ (continuesRawWord c = true ∨ c ∈ ['(', '[', '{', '"', '\'']) := by
  have plain (found : ∃ c more, cs = c :: more ∧ continuesRawWord c = true) :
      ∃ c more, cs = c :: more ∧
        (continuesRawWord c = true ∨ c ∈ ['(', '[', '{', '"', '\'']) := by
    obtain ⟨c, more, front, run⟩ := found
    exact ⟨c, more, front, .inl run⟩
  have bracket {opening closing : Char} {part : Reader Unit} {found : List Unit}
      (read : bracketed levels opening closing part cs = some (found, rest))
      (listed : opening ∈ ['(', '[', '{', '"', '\'']) :
      ∃ c more, cs = c :: more ∧
        (continuesRawWord c = true ∨ c ∈ ['(', '[', '{', '"', '\'']) := by
    obtain ⟨tail, _, front, _⟩ := bracketed_eq_some read
    exact ⟨opening, tail, front, .inr listed⟩
  cases skips with
  | word listed here =>
    obtain ⟨c, member, first⟩ := head?_of_listed listed here
    obtain ⟨more, front⟩ := List.head?_eq_some_iff.mp first
    have all : ∀ c ∈ ['t', 'f', 'N', 'i', '-'], continuesRawWord c = true := by
      simp [continuesRawWord, continuesWord]
    exact ⟨c, more, front, .inl (all c member)⟩
  | empty here => exact ⟨_, _, here, .inr (by simp)⟩
  | present here read =>
    obtain ⟨more, front⟩ := List.head?_eq_some_iff.mp (head?_of_atWord rfl here)
    exact ⟨_, more, front, .inl rfl⟩
  | name noPresent read after noBracket => exact plain (head_of_name read)
  | round noPresent opens kind read =>
    cases opens with
    | bare => exact bracket read (by simp)
    | named read after => exact plain (head_of_name read)
  | square read => exact bracket read (by simp)
  | curly read => exact bracket read (by simp)
  | number noPresent noName noRaw run => exact plain run.head
  | text noName read =>
    rcases string_front read with ⟨tail, front⟩ | ⟨mark, tail, front, -⟩
    · exact ⟨_, tail, front, .inr (by simp)⟩
    · exact ⟨_, _, front, .inl rfl⟩
  | character read =>
    obtain ⟨tail, front⟩ := character_front read
    exact ⟨_, tail, front, .inr (by simp)⟩

theorem visible (skips : Skips extensions levels inner part cs rest) : Visible cs := by
  obtain ⟨c, more, rfl, begins⟩ := skips.head
  refine visible_cons more fun blank => ?_
  rcases begins with plain | mark
  · rw [noRun_of_mark c (List.mem_append_left _ blank)] at plain
    cases plain
  · have all : ∀ c ∈ ['(', '[', '{', '"', '\''], c ∉ [' ', '\t', '\n', '\r', '/'] := by simp
    exact all c mark blank

theorem text_eq (skips : Skips extensions levels inner part cs other) {text : String}
    (read : string cs = some (text, rest)) : other = rest := by
  have noName := name_of_string read
  have first : ∀ c, cs.head? = some c → c ∈ ['"', 'r'] := by
    rintro c first
    rcases string_front read with ⟨tail, rfl⟩ | ⟨mark, tail, rfl, -⟩ <;> cases first <;> simp
  cases skips with
  | word listed here =>
    obtain ⟨c, member, front⟩ := head?_of_listed listed here
    have all : ∀ c ∈ ['t', 'f', 'N', 'i', '-'], c ∉ ['"', 'r'] := by simp
    exact absurd (first c front) (all c member)
  | empty here => exact absurd (first '(' (here ▸ rfl)) (by decide)
  | present here => exact absurd (first 'S' (head?_of_atWord rfl here)) (by decide)
  | name _ found => rw [noName] at found; cases found
  | round _ opens _ brackets =>
    cases opens with
    | bare =>
      obtain ⟨_, _, front, _⟩ := bracketed_eq_some brackets
      exact absurd (first '(' (front ▸ rfl)) (by decide)
    | named found => rw [noName] at found; cases found
  | square brackets =>
    obtain ⟨_, _, front, _⟩ := bracketed_eq_some brackets
    exact absurd (first '[' (front ▸ rfl)) (by decide)
  | curly brackets =>
    obtain ⟨_, _, front, _⟩ := bracketed_eq_some brackets
    exact absurd (first '{' (front ▸ rfl)) (by decide)
  | number _ _ noRaw run =>
    obtain ⟨c, more, rfl, plain⟩ := run.head
    rcases List.mem_cons.mp (first c rfl) with rfl | raw
    · cases plain
    · exact absurd (congrArg some (List.mem_singleton.mp raw)) noRaw
  | text _ again =>
    rw [read] at again
    cases again
    rfl
  | character found =>
    obtain ⟨tail, front⟩ := character_front found
    exact absurd (first '\'' (front ▸ rfl)) (by decide)

theorem square_eq {tail : List Char}
    (skips : Skips extensions levels inner part ('[' :: tail) rest) :
    ∃ found, bracketed levels '[' ']' part ('[' :: tail) = some (found, rest) := by
  cases skips with
  | word listed here =>
    obtain ⟨c, member, front⟩ := head?_of_listed listed here
    cases front
    simp at member
  | empty here => cases here
  | present here => cases head?_of_atWord rfl here
  | name _ found => cases found
  | round _ opens _ brackets =>
    cases opens with
    | bare =>
      obtain ⟨_, _, front, _⟩ := bracketed_eq_some brackets
      cases front
    | named found => cases found
  | square brackets => exact ⟨_, brackets⟩
  | curly brackets =>
    obtain ⟨_, _, front, _⟩ := bracketed_eq_some brackets
    cases front
  | number _ _ _ run =>
    obtain ⟨_, _, front, plain⟩ := run.head
    cases front
    cases plain
  | text _ found => cases found
  | character found => cases found

theorem name_eq (skips : Skips extensions levels inner part cs rest) {word : String}
    {middle : List Char} (read : Reader.name cs = some (word, middle))
    (free : ∀ listed ∈ reserved, atWord listed cs = false) :
    ∃ start, afterBlanks? .outside middle = some start ∧
      (rest = start ∧ start.head? ≠ some '(' ∨
        ∃ record found, opensRecord start = some (record, start) ∧
          bracketed levels '(' ')'
            (if record then entry (do let _ ← Reader.name) part else part) start =
              some (found, rest)) := by
  obtain ⟨c, more, first, run⟩ := head_of_name read
  have noBracket {opening closing : Char} {part : Reader Unit} {found : List Unit}
      (brackets : bracketed levels opening closing part cs = some (found, rest)) :
      continuesRawWord opening = true := by
    obtain ⟨_, _, front, _⟩ := bracketed_eq_some brackets
    rw [front] at first
    cases first
    exact run
  cases skips with
  | word listed here =>
    rw [free _ (List.mem_append_left ["Some"] listed)] at here
    cases here
  | empty here =>
    rw [here] at first
    cases first
    cases run
  | present here =>
    rw [free "Some" (by decide +kernel)] at here
    cases here
  | name _ again after noBracket =>
    rw [read] at again
    cases again
    exact ⟨_, after, .inl ⟨rfl, noBracket⟩⟩
  | round _ opens kind brackets =>
    cases opens with
    | bare => cases noBracket brackets
    | named again after =>
      rw [read] at again
      cases again
      exact ⟨_, after, .inr ⟨_, _, kind, brackets⟩⟩
  | square brackets | curly brackets => cases noBracket brackets
  | number _ noName | text noName =>
    rw [read] at noName
    cases noName
  | character found =>
    obtain ⟨tail, front⟩ := character_front found
    rw [front] at first
    cases first
    cases run

theorem round_eq {tail : List Char} (skips : Skips extensions levels inner part cs rest)
    (opens : Opens cs ('(' :: tail))
    (plain : ∀ word middle, Reader.name cs = some (word, middle) → word ∉ reserved) :
    tail = ')' :: rest ∨ ∃ record found, opensRecord ('(' :: tail) = some (record, '(' :: tail) ∧
      bracketed levels '(' ')'
        (if record then entry (do let _ ← Reader.name) part else part) ('(' :: tail) =
          some (found, rest) := by
  cases opens with
  | bare =>
    cases skips with
    | word listed here =>
      obtain ⟨c, member, front⟩ := head?_of_listed listed here
      cases front
      simp at member
    | empty here => exact .inl (List.cons.inj here).2
    | present here => cases head?_of_atWord rfl here
    | name _ found => cases found
    | round _ opens kind brackets =>
      cases opens with
      | bare => exact .inr ⟨_, _, kind, brackets⟩
      | named found => cases found
    | square brackets | curly brackets =>
      obtain ⟨_, _, front, _⟩ := bracketed_eq_some brackets
      cases front
    | number _ _ _ run =>
      obtain ⟨_, _, front, plain⟩ := run.head
      cases front
      cases plain
    | text _ found => cases found
    | character found => cases found
  | @named word middle _ read after =>
    obtain ⟨start, after', behind⟩ :=
      skips.name_eq read fun _ => atWord_of_name read (plain word middle read)
    rw [after] at after'
    cases after'
    rcases behind with ⟨-, noBracket⟩ | brackets
    · exact absurd rfl noBracket
    · exact .inr brackets

theorem option_eq (skips : Skips extensions levels inner part cs rest)
    (here : atWord "Some" cs = true) :
    ∃ found, option extensions inner cs = some (found, rest) := by
  have first := head?_of_atWord (c := 'S') rfl here
  obtain ⟨more, rfl⟩ := List.head?_eq_some_iff.mp first
  cases skips with
  | word listed here =>
    obtain ⟨c, member, front⟩ := head?_of_listed listed here
    cases front
    simp at member
  | empty here => cases here
  | present _ read => exact ⟨_, read⟩
  | name noPresent | round noPresent | number noPresent =>
    rw [here] at noPresent
    cases noPresent
  | square brackets | curly brackets =>
    obtain ⟨_, _, front, _⟩ := bracketed_eq_some brackets
    cases front
  | text _ found => cases found
  | character found => cases found

end Skips

/-! ## Runs -/

theorem run_raw_absurd (run : Run cs rest) (ends : Ends rest) {mark : Char} {tail : List Char}
    (front : cs = 'r' :: mark :: tail) (isMark : mark ∈ ['"', '#']) : False := by
  have whole := run.dropWhile ends.noRun
  have stops : continuesRawWord mark = false := by
    have all : ∀ mark ∈ ['"', '#'], continuesRawWord mark = false := by
      simp [continuesRawWord, continuesWord]
    exact all mark isMark
  rw [front, List.dropWhile_cons_of_pos rfl, List.dropWhile_cons_of_neg (by simp [stops])] at whole
  obtain ⟨c, more, same, listed⟩ := ends.head
  rw [← whole] at same
  cases same
  have all : ∀ mark ∈ ['"', '#'],
      mark ∉ [' ', '\t', '\n', '\r', '/', ',', ')', ']', '}'] := by simp
  exact all mark isMark listed

theorem name_of_run (run : Run cs rest) (noRun : NoRun rest)
    (noRaw : ∀ tail, cs ≠ 'r' :: '#' :: tail) {word : String} {middle : List Char}
    (read : name cs = some (word, middle)) : middle = rest := by
  cases named read with
  | plain _ _ all text stops =>
    have nonempty : word.toList ≠ [] := by
      intro empty
      rw [empty, List.nil_append] at text
      obtain ⟨c, tail, front, plain⟩ := run.head
      rw [← text, front] at stops
      exact Bool.false_ne_true ((stops c rfl).symm.trans plain)
    have again : Run cs middle := ⟨word.toList, nonempty, fun c member => by
      simp [continuesRawWord, all c member], text⟩
    exact again.unique stops run noRun
  | raw front => exact absurd front (noRaw _)

theorem ends_bracket (ends : Ends rest) {more : List Char} :
    afterBlanks? .outside rest ≠ some ('(' :: more) := by
  intro bracket
  obtain ⟨c, tail, after, mark⟩ := ends
  rw [bracket] at after
  cases after
  simp at mark

section

variable {inner : Reader Unit}
  (inside : ∀ {cs rest : List Char}, cs = rest ∨ Run cs rest → Ends rest →
    inner cs = some ((), other) → afterBlanks? .outside rest = afterBlanks? .outside other)
include inside

/-- A run that is read as an optional value is read as a whole, if what it holds is. -/
theorem run_option (run : Run cs rest) (ends : Ends rest) (present : cs.head? = some 'S')
    {found : Option Unit} (read : option extensions inner cs = some (found, other)) :
    afterBlanks? .outside rest = afterBlanks? .outside other := by
  have letters : ∀ c ∈ "Some".toList, continuesRawWord c = true := by
    simp [continuesRawWord, continuesWord]
  cases option_eq_some read with
  | absent front =>
    rw [front] at present
    cases present
  | present front after =>
    rw [front] at run
    rcases run.behind ends.noRun letters with rfl | run
    · exact absurd after (ends_bracket ends)
    · obtain ⟨c, more, same, plain⟩ := run.head
      rw [run.visible] at after
      cases after
      cases same
      cases plain
  | @bare _ tail start _ front after _ read =>
    rw [front] at run
    rcases run.behind ends.noRun letters with rfl | run
    · have visible := visible_afterBlanks after
      have ends : Ends start := by
        obtain ⟨c, more, mark, listed⟩ := ends
        rw [after] at mark
        exact ⟨c, more, visible.trans mark, listed⟩
      rw [after, ← inside (.inl rfl) ends read, visible]
    · rw [run.visible] at after
      cases after
      exact inside (.inr run) ends read
  | unmarked _ read => exact inside (.inr run) ends read

/-- A run is passed over as a whole before a text that ends a value, if what an optional value
holds is. Nothing can be passed over where no run is left. -/
theorem Skips.run {levels : Nat} {part : Reader Unit}
    (skips : Skips extensions levels inner part cs other) (run : cs = rest ∨ Run cs rest)
    (ends : Ends rest) (ends' : Ends other) :
    afterBlanks? .outside rest = afterBlanks? .outside other := by
  rcases run with rfl | run
  · obtain ⟨c, more, rfl, begins⟩ := skips.head
    obtain ⟨d, tail, same, mark⟩ := ends.head
    cases same
    rcases begins with plain | bracket
    · rw [noRun_of_mark c mark] at plain
      cases plain
    · have all : ∀ c ∈ ['(', '[', '{', '"', '\''],
          c ∉ [' ', '\t', '\n', '\r', '/', ',', ')', ']', '}'] := by
        simp
      exact absurd mark (all c bracket)
  -- Values that begin with a mark are no runs, by their first character.
  obtain ⟨c, more, first, plain⟩ := run.head
  have noRaw (tail : List Char) : cs ≠ 'r' :: '#' :: tail :=
    fun front => run_raw_absurd run ends front (by simp)
  cases skips with
  | word listed here =>
    have all : ∀ word ∈ ["true", "false", "None", "inf", "-inf", "NaN"], word.toList ≠ [] ∧
        ∀ c ∈ word.toList, continuesRawWord c = true := by
      simp [continuesRawWord, continuesWord]
    obtain ⟨nonempty, letters⟩ := all _ listed
    rw [run.unique ends.noRun (.of_atWord nonempty letters here) ends'.noRun]
  | empty here =>
    rw [here] at first
    cases first
    cases plain
  | present here read => exact run_option inside run ends (head?_of_atWord rfl here) read
  | name _ read after =>
    obtain rfl := name_of_run run ends.noRun noRaw read
    rw [after, visible_afterBlanks after]
  | round _ opens _ brackets =>
    obtain ⟨_, _, front, _⟩ := bracketed_eq_some brackets
    cases opens with
    | bare =>
      rw [front] at first
      cases first
      cases plain
    | named read after =>
      obtain rfl := name_of_run run ends.noRun noRaw read
      rw [front] at after
      exact absurd after (ends_bracket ends)
  | square brackets | curly brackets =>
    obtain ⟨_, _, front, _⟩ := bracketed_eq_some brackets
    rw [front] at first
    cases first
    cases plain
  | number _ _ _ again => rw [run.unique ends.noRun again ends'.noRun]
  | text _ found =>
    rcases string_front found with ⟨tail, front⟩ | ⟨mark, tail, front, isMark, -⟩
    · rw [front] at first
      cases first
      cases plain
    · exact (run_raw_absurd run ends front isMark).elim
  | character found =>
    obtain ⟨tail, front⟩ := character_front found
    rw [front] at first
    cases first
    cases plain

end

theorem Skips.glued_absurd {levels : Nat} {inner part : Reader Unit} {mark : Char}
    {tail : List Char}
    (skips : Skips extensions levels inner part ('S' :: 'o' :: 'm' :: 'e' :: 'r' :: mark :: tail)
      other)
    (isMark : mark ∈ ['"', '#']) (ends : Ends other) : False := by
  have run : Run ('S' :: 'o' :: 'm' :: 'e' :: 'r' :: mark :: tail) (mark :: tail) :=
    ⟨"Somer".toList, by decide, by simp [continuesRawWord, continuesWord], rfl⟩
  have all : ∀ mark ∈ ['"', '#'], continuesRawWord mark = false ∧
      mark ∉ [' ', '\t', '\n', '\r', '/'] ∧
      mark ∉ [' ', '\t', '\n', '\r', '/', ',', ')', ']', '}'] := by
    simp [continuesRawWord, continuesWord]
  obtain ⟨stops, noBlank, noEnd⟩ := all mark isMark
  have noRun : NoRun (mark :: tail) := by
    intro c first
    cases first
    exact stops
  have visible : Visible (mark :: tail) := visible_cons tail noBlank
  have apart : other ≠ mark :: tail := by
    rintro rfl
    obtain ⟨c, more, same, listed⟩ := ends.head
    cases same
    exact noEnd listed
  cases skips with
  | word listed here =>
    obtain ⟨c, member, front⟩ := head?_of_listed listed here
    cases front
    simp at member
  | empty here => cases here
  | present here =>
    obtain ⟨tail, front, stops⟩ := atWord_front here
    cases front
    cases stops 'r' rfl
  | name _ read after =>
    obtain rfl := name_of_run run noRun (by simp) read
    rw [visible] at after
    cases after
    exact apart rfl
  | round _ opens _ brackets =>
    obtain ⟨_, _, front, _⟩ := bracketed_eq_some brackets
    cases opens with
    | bare => cases front
    | named read after =>
      obtain rfl := name_of_run run noRun (by simp) read
      rw [visible, front] at after
      cases after
      simp at isMark
  | square brackets | curly brackets =>
    obtain ⟨_, _, front, _⟩ := bracketed_eq_some brackets
    cases front
  | number _ _ _ again => exact apart (again.unique ends.noRun run noRun)
  | text _ found => cases found
  | character found => cases found

theorem skip_run {levels : Nat} (run : cs = rest ∨ Run cs rest) (ends : Ends rest)
    (passed : skip extensions levels cs = some ((), other)) (ends' : Ends other) :
    afterBlanks? .outside rest = afterBlanks? .outside other := by
  induction levels generalizing cs rest with
  | zero =>
    rw [skip_eq] at passed
    exact (skips passed).run (fun _ _ failed => by cases failed) run ends ends'
  | succ levels ih =>
    rw [skip_eq] at passed
    exact (skips passed).run (fun run ends passed => ih run ends passed) run ends ends'

end Parametric.Ron.Reader
