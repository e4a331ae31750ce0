import Parametric.Proofs.Ron.Reading
import Parametric.Proofs.Text.Runs
/-! How far the readers of a RON text read.

What stands in a bracket ends before a comma or a closing bracket. A word or a number is a run of
characters that no mark and no blank is among. So wherever a reader may stop on its way, before such
a text it has read the whole run.
-/

set_option autoImplicit false

namespace Parametric.Ron

variable {cs rest other : List Char}

/-! ## Blanks -/

theorem visible_afterBlanks {passage : Passage} (after : afterBlanks? passage cs = some rest) :
    Visible rest := by
  fun_induction afterBlanks? passage cs with
  | case1 _ ih | case2 _ ih | case3 _ _ _ _ _ ih | case6 _ _ ih | case7 _ _ ih | case8 _ ih
  | case9 _ _ ih | case10 _ _ _ _ _ _ ih => exact ih after
  | case4 | case11 => cases after
  | case5 c more _ _ noBlank noSlash =>
    cases after
    refine visible_cons more ?_
    simp only [List.mem_cons, List.not_mem_nil, or_false, not_or] at noBlank ⊢
    exact ⟨noBlank.1, noBlank.2.1, noBlank.2.2.1, noBlank.2.2.2, noSlash⟩
  | case12 =>
    cases after
    rfl

/-- A comma or a closing bracket comes next, and blanks perhaps before it. -/
def Ends (rest : List Char) : Prop :=
  ∃ c more, afterBlanks? .outside rest = some (c :: more) ∧ c ∈ [',', ')', ']', '}']

theorem Ends.head (ends : Ends rest) : ∃ c more, rest = c :: more ∧
    c ∈ [' ', '\t', '\n', '\r', '/', ',', ')', ']', '}'] := by
  obtain ⟨mark, behind, after, isMark⟩ := ends
  cases rest with
  | nil => cases after
  | cons c more =>
    refine ⟨c, more, rfl, ?_⟩
    by_cases blank : c ∈ [' ', '\t', '\n', '\r', '/']
    · exact List.mem_append_left _ blank
    · rw [visible_cons more blank] at after
      cases after
      exact List.mem_append_right [' ', '\t', '\n', '\r', '/'] isMark

/-! ## Runs -/

theorem atWord_front {word : String} (here : atWord word cs = true) :
    ∃ tail, cs = word.toList ++ tail ∧ ∀ c ∈ tail.head?, continuesWord c = false := by
  obtain ⟨start, stops⟩ := Bool.and_eq_true_iff.mp here
  obtain ⟨tail, rfl⟩ := List.isPrefixOf_iff_prefix.mp start
  refine ⟨tail, rfl, fun c first => ?_⟩
  rw [← String.length_toList, List.drop_left, Option.mem_def.mp first] at stops
  simpa using stops

/-- A run of letters, digits, underscores, points and signs stands before the rest of a text. -/
def Run (cs rest : List Char) : Prop :=
  ∃ word, word ≠ [] ∧ (∀ c ∈ word, continuesRawWord c = true) ∧ cs = word ++ rest

def NoRun (rest : List Char) : Prop :=
  ∀ c ∈ rest.head?, continuesRawWord c = false

theorem noRun_of_mark : ∀ c ∈ [' ', '\t', '\n', '\r', '/', ',', ')', ']', '}'],
    continuesRawWord c = false := by
  simp [continuesRawWord, continuesWord]

theorem Ends.noRun (ends : Ends rest) : NoRun rest := by
  obtain ⟨c, more, rfl, mark⟩ := ends.head
  intro d first
  cases first
  exact noRun_of_mark c mark

theorem NoRun.noWord (noRun : NoRun rest) : ∀ c ∈ rest.head?, continuesWord c = false :=
  fun c first => (Bool.or_eq_false_iff.mp (noRun c first)).1

namespace Run

theorem head (run : Run cs rest) : ∃ c more, cs = c :: more ∧ continuesRawWord c = true := by
  obtain ⟨word, nonempty, all, rfl⟩ := run
  obtain ⟨c, more, rfl⟩ := List.exists_cons_of_ne_nil nonempty
  exact ⟨c, more ++ rest, rfl, all c List.mem_cons_self⟩

theorem visible (run : Run cs rest) : Visible cs := by
  obtain ⟨c, more, rfl, plain⟩ := run.head
  refine visible_cons more fun blank => ?_
  rw [noRun_of_mark c (List.mem_append_left _ blank)] at plain
  cases plain

theorem dropWhile (run : Run cs rest) (noRun : NoRun rest) :
    cs.dropWhile continuesRawWord = rest := by
  obtain ⟨word, _, all, rfl⟩ := run
  exact dropWhile_stops all noRun

theorem unique (run : Run cs rest) (noRun : NoRun rest) (again : Run cs other)
    (noRun' : NoRun other) : rest = other :=
  (run.dropWhile noRun).symm.trans (again.dropWhile noRun')

theorem behind {word tail : List Char} (run : Run (word ++ tail) rest) (noRun : NoRun rest)
    (all : ∀ c ∈ word, continuesRawWord c = true) : tail = rest ∨ Run tail rest := by
  have whole := run.dropWhile noRun
  rw [List.dropWhile_append_of_pos all] at whole
  have split : tail.takeWhile continuesRawWord ++ rest = tail :=
    whole ▸ List.takeWhile_append_dropWhile
  by_cases empty : tail.takeWhile continuesRawWord = []
  · rw [empty] at split
    exact .inl split.symm
  · exact .inr ⟨_, empty, fun c => List.mem_takeWhile_imp, split.symm⟩

theorem of_prefix {word : List Char} (front : word <+: cs) (nonempty : word ≠ [])
    (all : ∀ c ∈ word, continuesRawWord c = true) : Run cs (cs.drop word.length) := by
  obtain ⟨tail, rfl⟩ := front
  rw [List.drop_left]
  exact ⟨word, nonempty, all, rfl⟩

theorem of_takeWhile {p : Char → Bool} (inside : ∀ c, p c = true → continuesRawWord c = true)
    (nonempty : cs.takeWhile p ≠ []) : Run cs (cs.drop (cs.takeWhile p).length) :=
  of_prefix (List.takeWhile_prefix p) nonempty fun c member =>
    inside c (List.mem_takeWhile_imp member)

theorem of_atWord {word : String} (nonempty : word.toList ≠ [])
    (all : ∀ c ∈ word.toList, continuesRawWord c = true) (here : atWord word cs = true) :
    Run cs (cs.drop word.length) := by
  obtain ⟨tail, front, -⟩ := atWord_front here
  exact String.length_toList ▸ of_prefix ⟨tail, front.symm⟩ nonempty all

theorem cons (run : Run cs rest) {c : Char} (plain : continuesRawWord c = true) :
    Run (c :: cs) rest := by
  obtain ⟨word, nonempty, all, rfl⟩ := run
  exact ⟨c :: word, List.cons_ne_nil c word, List.forall_mem_cons.mpr ⟨plain, all⟩, rfl⟩

end Run

theorem visible_word {c : Char} (plain : continuesWord c = true) (rest : List Char) :
    Visible (c :: rest) := by
  have run : Run (c :: rest) rest := ⟨[c], by simp, by simp [continuesRawWord, plain], rfl⟩
  exact run.visible

theorem continuesRawWord_of_isAlphanum {c : Char} (isAlphanum : c.isAlphanum = true) :
    continuesRawWord c = true := by
  simp [continuesRawWord, continuesWord, isAlphanum]

theorem continuesWord_of_startsWord {c : Char} (starts : startsWord c = true) :
    continuesWord c = true := by
  rcases Bool.or_eq_true_iff.mp starts with letter | underscore
  · simp [continuesWord, Char.isAlphanum, letter]
  · rw [of_decide_eq_true underscore]
    rfl

theorem continuesRawWord_of_decimal {c : Char} (decimal : continuesDecimal c = true) :
    continuesRawWord c = true := by
  rcases Bool.or_eq_true_iff.mp decimal with digit | mark
  · exact continuesRawWord_of_isAlphanum (by simp [Char.isAlphanum, digit])
  · have all : ∀ c ∈ ['e', 'E', '.', '+', '-', '_'], continuesRawWord c = true := by
      simp [continuesRawWord, continuesWord]
    exact all c (of_decide_eq_true mark)

theorem continuesRawWord_of_integer {c : Char} (integer : continuesInteger c = true) :
    continuesRawWord c = true := by
  rcases Bool.or_eq_true_iff.mp integer with digit | mark
  · refine continuesRawWord_of_isAlphanum ?_
    unfold Text.hexValue? at digit
    split_ifs at digit <;>
      simp_all [Char.isAlphanum, Char.isAlpha, Char.isUpper, Char.isLower, Char.isDigit,
        Char.le_def, UInt32.le_iff_toNat_le] <;> omega
  · rw [of_decide_eq_true mark]
    rfl

namespace Reader

theorem run_float {x : Float} (read : float cs = some (x, rest)) : Run cs rest := by
  unfold float at read
  split at read
  · next word found =>
    obtain ⟨value, _, same⟩ := Option.map_eq_some_iff.mp read
    cases same
    have all : ∀ word ∈ ["inf", "+inf", "-inf", "NaN", "+NaN", "-NaN"], word.toList ≠ [] ∧
        ∀ c ∈ word.toList, continuesRawWord c = true := by
      simp [continuesRawWord, continuesWord]
    have plain := all word (List.mem_of_find?_eq_some found)
    exact .of_atWord plain.1 plain.2 (List.find?_some (p := (atWord · cs)) found)
  · dsimp only at read
    split at read
    · cases read
    · obtain ⟨value, number, same⟩ := Option.map_eq_some_iff.mp read
      cases same
      refine .of_takeWhile (fun c => continuesRawWord_of_decimal) fun empty => ?_
      rw [empty] at number
      cases number

theorem run_naturalBelow {limit n : Nat} (read : naturalBelow limit cs = some (n, rest)) :
    Run cs rest := by
  unfold naturalBelow at read
  split at read
  next radix digits base =>
  dsimp only at read
  have run : Run digits rest := by
    split at read
    · cases read
    · next some =>
      obtain ⟨value, number, read⟩ := Option.bind_eq_some_iff.mp read
      split at read
      · cases read
        refine .of_takeWhile (fun c => continuesRawWord_of_integer) fun empty => ?_
        simp [empty] at some
      · cases read
  split at base
  · cases base
    exact (run.cons rfl).cons rfl
  · cases base
    exact (run.cons rfl).cons rfl
  · cases base
    exact (run.cons rfl).cons rfl
  · cases base
    exact run

theorem run_anyNumber (read : anyNumber cs = some ((), rest)) : Run cs rest := by
  unfold anyNumber at read
  split at read
  next digits limit sign =>
  dsimp only at read
  split at read
  · next integer =>
    cases read
    have run : Run digits rest := by
      split at integer
      · cases integer
      · exact run_naturalBelow integer
    split at sign
    · cases sign
      exact run.cons rfl
    · cases sign
      exact run.cons rfl
    · cases sign
      exact run
  · obtain ⟨⟨x, _⟩, number, same⟩ := Option.map_eq_some_iff.mp read
    cases same
    exact run_float number

inductive Named (cs : List Char) (word : String) (rest : List Char) : Prop where
  | plain {c : Char} {more : List Char} (front : cs = c :: more) (starts : startsWord c = true)
      (all : ∀ c ∈ word.toList, continuesWord c = true) (text : cs = word.toList ++ rest)
      (noRun : NoRun rest)
  | raw {tail : List Char} (front : cs = 'r' :: '#' :: tail)

theorem named {word : String} (read : name cs = some (word, rest)) : Named cs word rest := by
  unfold name at read
  dsimp only at read
  split at read
  · cases read
  · exact .raw rfl
  · next c more _ _ =>
    split at read
    · next plain =>
      obtain ⟨starts, all⟩ := Bool.and_eq_true_iff.mp plain
      cases read
      rw [drop_takeWhile]
      refine .plain rfl starts ?_ ?_ (dropWhile_head _ _)
      · rw [String.toList_ofList]
        exact List.all_eq_true.mp all
      · rw [String.toList_ofList, List.takeWhile_append_dropWhile]
    · cases read
  · cases read

theorem string_front {text : String} (read : string cs = some (text, rest)) :
    (∃ tail, cs = '"' :: tail) ∨ ∃ mark tail, cs = 'r' :: mark :: tail ∧ mark ∈ ['"', '#'] ∧
      name cs = none := by
  unfold string at read
  split at read
  · next tail => exact .inl ⟨tail, rfl⟩
  · next rest =>
    right
    dsimp only at read
    split at read
    · next tail quote =>
      rw [drop_takeWhile] at quote
      cases rest with
      | nil => cases quote
      | cons mark rest =>
        by_cases hash : mark = '#'
        · subst hash
          refine ⟨'#', rest, rfl, by simp, ?_⟩
          -- Behind the hash sign stands another one or a quotation mark, and neither is in a name.
          have noRun : rest.takeWhile continuesRawWord = [] := by
            rw [List.dropWhile_cons_of_pos (by simp)] at quote
            cases rest with
            | nil => rfl
            | cons c rest =>
              by_cases again : c = '#'
              · rw [again]
                rfl
              · rw [List.dropWhile_cons_of_neg (by simpa using again)] at quote
                rw [(List.cons.inj quote).1]
                rfl
          rw [name, noRun]
          rfl
        · rw [List.dropWhile_cons_of_neg (by simpa using hash)] at quote
          cases quote
          exact ⟨'"', tail, rfl, by simp, rfl⟩
    · cases read
  · cases read

theorem name_of_string {text : String} (read : string cs = some (text, rest)) :
    name cs = none := by
  rcases string_front read with ⟨tail, rfl⟩ | ⟨mark, tail, -, -, noName⟩
  · rfl
  · exact noName

/-! ## What an accepted step comes from -/

variable {α β : Type}

theorem bind_eq_some {reader : Reader α} {next : α → Reader β} {y : β}
    (read : (reader >>= next) cs = some (y, rest)) :
    ∃ x middle, reader cs = some (x, middle) ∧ next x middle = some (y, rest) := by
  obtain ⟨⟨x, middle⟩, first, second⟩ := Option.bind_eq_some_iff.mp read
  exact ⟨x, middle, first, second⟩

theorem guard_eq_some {p : Prop} [Decidable p] {x : Unit}
    (read : (guard p : Reader Unit) cs = some (x, rest)) : p ∧ cs = rest := by
  by_cases holds : p
  · rw [guard_eq holds] at read
    cases read
    exact ⟨holds, rfl⟩
  · rw [guard, if_neg holds] at read
    cases read

theorem get_eq_some {state : List Char}
    (read : (get : Reader (List Char)) cs = some (state, rest)) : cs = state ∧ cs = rest := by
  cases read
  exact ⟨rfl, rfl⟩

theorem next?_eq_some {c : Option Char} (read : next? cs = some (c, rest)) :
    cs.head? = c ∧ cs = rest := by
  cases read
  exact ⟨rfl, rfl⟩

theorem took_eq_some {text : String} {found : Bool} (read : took text cs = some (found, rest)) :
    found = true ∧ cs = text.toList ++ rest ∨
      found = false ∧ text.toList.isPrefixOf cs = false ∧ cs = rest := by
  unfold took at read
  split at read
  · next front =>
    cases read
    obtain ⟨tail, rfl⟩ := List.isPrefixOf_iff_prefix.mp front
    rw [← String.length_toList, List.drop_left]
    exact .inl ⟨rfl, rfl⟩
  · next other =>
    cases read
    exact .inr ⟨rfl, Bool.eq_false_iff.mpr other, rfl⟩

theorem take_eq_some {c : Char} {x : Unit} (read : take c cs = some (x, rest)) :
    cs = c :: rest := by
  unfold take at read
  split at read
  · split at read
    · next same =>
      cases read
      rw [same]
    · cases read
  · cases read

theorem blanks_eq_some {x : Unit} (read : blanks cs = some (x, rest)) :
    afterBlanks? .outside cs = some rest := by
  obtain ⟨_, after, same⟩ := Option.map_eq_some_iff.mp read
  cases same
  exact after

theorem tookComma_eq_some {found : Bool} (read : tookComma cs = some (found, rest)) :
    (found = true ∧ ∃ tail, afterBlanks? .outside cs = some (',' :: tail) ∧
      afterBlanks? .outside tail = some rest) ∨
    (found = false ∧ afterBlanks? .outside cs = some rest ∧ rest.head? ≠ some ',') := by
  obtain ⟨_, first, before, read⟩ := bind_eq_some read
  obtain ⟨comma, second, took, read⟩ := bind_eq_some read
  obtain ⟨_, last, behind, read⟩ := bind_eq_some read
  cases read
  have before := blanks_eq_some before
  have behind := blanks_eq_some behind
  rcases took_eq_some took with ⟨rfl, rfl⟩ | ⟨rfl, other, rfl⟩
  · exact .inl ⟨rfl, second, before, behind⟩
  · rw [visible_afterBlanks before] at behind
    cases behind
    refine .inr ⟨rfl, before, fun comma => ?_⟩
    obtain ⟨tail, rfl⟩ := List.head?_eq_some_iff.mp comma
    cases other

theorem tookComma_congr (same : afterBlanks? .outside cs = afterBlanks? .outside other) :
    tookComma cs = tookComma other := by
  have blank : blanks cs = blanks other := by rw [blanks, blanks, same]
  change (blanks cs).bind _ = (blanks other).bind _
  rw [blank]

theorem ends_of_tookComma {comma : Bool} (took : tookComma cs = some (comma, ')' :: rest)) :
    Ends cs := by
  rcases tookComma_eq_some took with ⟨_, tail, after, _⟩ | ⟨_, after, _⟩
  · exact ⟨',', tail, after, by simp⟩
  · exact ⟨')', rest, after, by simp⟩

inductive Optional (extensions : Extensions) (value : Reader α) (cs : List Char) :
    Option α → List Char → Prop where
  | absent {rest : List Char} (front : cs = "None".toList ++ rest) :
      Optional extensions value cs none rest
  | present {x : α} {tail inside start behind rest : List Char} {comma : Bool}
      (front : cs = "Some".toList ++ tail)
      (after : afterBlanks? .outside tail = some ('(' :: inside))
      (begins : afterBlanks? .outside inside = some start) (read : value start = some (x, behind))
      (ends : tookComma behind = some (comma, ')' :: rest)) :
      Optional extensions value cs (some x) rest
  | bare {x : α} {tail start rest : List Char} (front : cs = "Some".toList ++ tail)
      (after : afterBlanks? .outside tail = some start) (noBracket : start.head? ≠ some '(')
      (read : value start = some (x, rest)) : Optional extensions value cs (some x) rest
  | unmarked {x : α} {rest : List Char} (noMark : "Some".toList.isPrefixOf cs = false)
      (read : value cs = some (x, rest)) :
      Optional extensions value cs (some x) rest

theorem option_eq_some {extensions : Extensions} {value : Reader α} {found : Option α}
    (read : option extensions value cs = some (found, rest)) :
    Optional extensions value cs found rest := by
  obtain ⟨_, _, took, afterNone⟩ := bind_eq_some read
  rcases took_eq_some took with ⟨rfl, front⟩ | ⟨rfl, _, rfl⟩
  · cases afterNone
    exact .absent front
  rw [if_neg Bool.false_ne_true] at afterNone
  obtain ⟨_, tail, took, afterSome⟩ := bind_eq_some afterNone
  rcases took_eq_some took with ⟨rfl, front⟩ | ⟨rfl, noMark, rfl⟩
  · rw [if_pos rfl] at afterSome
    obtain ⟨_, start, blank, afterBlanks⟩ := bind_eq_some afterSome
    have after := blanks_eq_some blank
    obtain ⟨_, inside, took, behind⟩ := bind_eq_some afterBlanks
    rcases took_eq_some took with ⟨rfl, bracket⟩ | ⟨rfl, other, rfl⟩
    · rw [if_pos rfl] at behind
      obtain ⟨_, _, blank, behind⟩ := bind_eq_some behind
      obtain ⟨x, _, inner, behind⟩ := bind_eq_some behind
      obtain ⟨comma, _, took, behind⟩ := bind_eq_some behind
      obtain ⟨_, _, closed, done⟩ := bind_eq_some behind
      cases done
      rw [bracket] at after
      rw [take_eq_some closed] at took
      exact .present front after (blanks_eq_some blank) inner took
    · rw [if_neg Bool.false_ne_true] at behind
      obtain ⟨_, _, guarded, behind⟩ := bind_eq_some behind
      obtain ⟨-, rfl⟩ := guard_eq_some guarded
      obtain ⟨x, _, inner, done⟩ := bind_eq_some behind
      cases done
      refine .bare front after (fun bracket => ?_) inner
      obtain ⟨more, rfl⟩ := List.head?_eq_some_iff.mp bracket
      cases other
  · rw [if_neg Bool.false_ne_true] at afterSome
    obtain ⟨_, _, guarded, behind⟩ := bind_eq_some afterSome
    obtain ⟨-, rfl⟩ := guard_eq_some guarded
    obtain ⟨x, _, inner, done⟩ := bind_eq_some behind
    cases done
    exact .unmarked noMark inner

/-- Parts up to a closing bracket, with a comma behind each but perhaps the last. -/
inductive Parts (closing : Char) (part : Reader α) : List Char → List α → List Char → Prop where
  | nil {cs : List Char} (closes : cs.head? = some closing) : Parts closing part cs [] cs
  | last {cs middle rest : List Char} {x : α} (goesOn : cs.head? ≠ some closing)
      (read : part cs = some (x, middle)) (after : afterBlanks? .outside middle = some rest)
      (noComma : rest.head? ≠ some ',') : Parts closing part cs [x] rest
  | cons {cs middle tail next rest : List Char} {x : α} {xs : List α}
      (goesOn : cs.head? ≠ some closing) (read : part cs = some (x, middle))
      (after : afterBlanks? .outside middle = some (',' :: tail))
      (begins : afterBlanks? .outside tail = some next) (later : Parts closing part next xs rest) :
      Parts closing part cs (x :: xs) rest

theorem parts_eq_some {closing : Char} {part : Reader α} {fuel : Nat} {found : List α}
    (read : parts closing part fuel cs = some (found, rest)) :
    Parts closing part cs found rest := by
  induction fuel generalizing cs found with
  | zero => cases read
  | succ fuel ih =>
    obtain ⟨c, _, got, choose⟩ := bind_eq_some read
    obtain ⟨first, rfl⟩ := next?_eq_some got
    split at choose
    · next closes =>
      cases choose
      exact .nil (first.trans closes)
    · next goesOn =>
      have goesOn : cs.head? ≠ some closing := fun closes => goesOn (first.symm.trans closes)
      obtain ⟨x, middle, here, behind⟩ := bind_eq_some choose
      obtain ⟨comma, next, took, behind⟩ := bind_eq_some behind
      rcases tookComma_eq_some took with ⟨rfl, tail, after, begins⟩ | ⟨rfl, after, noComma⟩
      · rw [if_pos rfl] at behind
        obtain ⟨xs, _, later, done⟩ := bind_eq_some behind
        cases done
        exact .cons goesOn here after begins (ih later)
      · cases behind
        exact .last goesOn here after noComma

theorem bracketed_eq_some {levels : Nat} {opening closing : Char} {part : Reader α} {found : List α}
    (read : bracketed levels opening closing part cs = some (found, rest)) :
    ∃ tail inside, cs = opening :: tail ∧ afterBlanks? .outside tail = some inside ∧
      Parts closing (do guard (1 < levels); part) inside found (closing :: rest) := by
  obtain ⟨_, _, guarded, read⟩ := bind_eq_some read
  obtain ⟨-, rfl⟩ := guard_eq_some guarded
  obtain ⟨_, tail, opened, read⟩ := bind_eq_some read
  obtain ⟨_, inside, after, read⟩ := bind_eq_some read
  obtain ⟨_, _, got, read⟩ := bind_eq_some read
  obtain ⟨rfl, rfl⟩ := get_eq_some got
  obtain ⟨_, closes, found, read⟩ := bind_eq_some read
  obtain ⟨_, _, closed, done⟩ := bind_eq_some read
  cases done
  rw [take_eq_some closed] at found
  exact ⟨tail, inside, take_eq_some opened, blanks_eq_some after, parts_eq_some found⟩

end Reader

end Parametric.Ron
