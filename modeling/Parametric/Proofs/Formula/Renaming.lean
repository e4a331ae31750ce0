import Mathlib.Data.List.Chain
import Parametric.Proofs.Formula.Evaluation
import Parametric.Proofs.Formula.Parsing
import Parametric.Proofs.Formula.Partition
/-! Renaming in the text of a formula renames in its tree.

In a text that parses, one of two neighbouring tokens is a symbol, so names and
numerals stand alone. The renaming takes the tokens of the text one by one to
those of the renamed text, which derive the renamed tree.
-/

set_option autoImplicit false

namespace Parametric

namespace Expr

mutual

/-- The expression with its names changed; function names are kept. -/
def rename (change : String → String) : Expr → Expr
  | number value => number value
  | name text => name (change text)
  | signed sign operand => signed sign (operand.rename change)
  | binary operator left right => binary operator (left.rename change) (right.rename change)
  | call function arguments => call function (renameAll change arguments)

def renameAll (change : String → String) : List Expr → List Expr
  | [] => []
  | e :: rest => e.rename change :: renameAll change rest

end

variable {change : String → String}

theorem renameAll_eq (es : List Expr) : renameAll change es = es.map (rename change) := by
  induction es with
  | nil => rfl
  | cons e rest ih => rw [renameAll, ih, List.map_cons]

theorem mentions_rename (e : Expr) : (e.rename change).mentions = e.mentions.map change := by
  induction e with
  | number value => rfl
  | name text => rfl
  | signed sign operand ih => exact ih
  | binary operator left right ihLeft ihRight =>
    rw [rename, mentions, mentions, ihLeft, ihRight, List.map_append]
  | call function arguments ih =>
    rw [rename, renameAll_eq, mentions, mentionsAll_eq, mentions, mentionsAll_eq, List.flatMap_map,
      List.map_flatMap]
    exact List.flatMap_congr ih

theorem rename_same {e : Expr} (same : ∀ name ∈ e.mentions, change name = name) :
    e.rename change = e := by
  induction e with
  | number value => rfl
  | name text => rw [rename, same text (by simp [mentions])]
  | signed sign operand ih => rw [rename, ih same]
  | binary operator left right ihLeft ihRight =>
    rw [rename, ihLeft fun name member => same name (List.mem_append_left _ member),
      ihRight fun name member => same name (List.mem_append_right _ member)]
  | call function arguments ih =>
    have each : ∀ a ∈ arguments, a.rename change = id a := by
      exact fun a member => ih a member fun name mentioned =>
        same name (mem_mentions_call member mentioned)
    rw [rename, renameAll_eq, List.map_congr_left each, List.map_id]

end Expr

namespace Formula

open Token

/-! ## Tokens -/

/-- The tokens after the renaming: a name is called if a parenthesis follows. -/
def renameKinds (old fresh : String) : List TokenKind → List TokenKind
  | [] => []
  | .name text :: rest =>
    .name (if text = old ∧ rest.head? ≠ some (.symbol .opening) then fresh else text) ::
      renameKinds old fresh rest
  | k :: rest => k :: renameKinds old fresh rest

/-- Of two neighbouring tokens, one is a symbol. -/
def Apart (a b : TokenKind) : Prop :=
  (∃ s, a = .symbol s) ∨ ∃ s, b = .symbol s

inductive FirstToken (c : Char) (rest : List Char) : TokenKind → List Char → Prop where
  | symbol (mark : Symbol) (same : c = mark.char) : FirstToken c rest (.symbol mark) [c]
  | number (value : Float) {text : List Char} (starts : startsNumeral c rest = true)
      (longest : text = numeralPart (c :: rest)) : FirstToken c rest (.number value) text
  | name {text : List Char} (starts : startsName c = true)
      (longest : text = c :: rest.takeWhile continuesName) :
      FirstToken c rest (.name (String.ofList text)) text

theorem firstToken {c : Char} {rest text : List Char} {kind : TokenKind}
    (found : first c rest = .ok (kind, text)) : FirstToken c rest kind text := by
  unfold first at found
  split at found
  · next mark symbol =>
    cases found
    exact .symbol mark (char_of_ofChar? symbol)
  · split at found
    · next starts =>
      dsimp only at found
      split at found
      · cases found
      · split at found
        · cases found
          exact .number _ starts rfl
        · cases found
    · split at found
      · next starts =>
        cases found
        exact .name starts rfl
      · cases found

def Gap (c : Char) : Prop :=
  Text.isWordCharacter c = false ∧ c ≠ '.'

theorem Gap.noName {c : Char} (gap : Gap c) : continuesName c = false := by
  by_contra continues
  have word := Text.isWordCharacter_of_continuesName (Bool.not_eq_false _ ▸ continues)
  rw [gap.1] at word
  cases word

theorem Gap.noStart {c : Char} (gap : Gap c) : startsName c = false := by
  by_contra starts
  have continues := continuesName_of_startsName (Bool.not_eq_false _ ▸ starts)
  rw [gap.noName] at continues
  cases continues

theorem gap_of_isBlank {c : Char} (blank : Text.isBlank c = true) : Gap c := by
  refine ⟨Text.isWordCharacter_of_isBlank blank, ?_⟩
  rintro rfl
  exact absurd blank (by decide)

theorem gap_symbol (s : Symbol) : Gap s.char :=
  ⟨Text.isWordCharacter_symbol s, by cases s <;> decide⟩

/-- A text with its tokens, whatever their offsets. -/
inductive Tokenized : List Char → List Token → Prop where
  | nil : Tokenized [] []
  | blank {c : Char} {rest : List Char} {tokens : List Token} (blank : Text.isBlank c = true)
      (after : Tokenized rest tokens) : Tokenized (c :: rest) tokens
  | token {c : Char} {tail rest : List Char} {kind : TokenKind} {tokens : List Token}
      (offset : Nat) (visible : Text.isBlank c = false)
      (found : first c (tail ++ rest) = .ok (kind, c :: tail)) (after : Tokenized rest tokens) :
      Tokenized (c :: tail ++ rest) (⟨kind, offset, String.ofList (c :: tail)⟩ :: tokens)

theorem tokenized_of_allFrom {offset : Nat} {cs : List Char} {tokens : List Token}
    (scanned : allFrom offset cs = .ok tokens) : Tokenized cs tokens := by
  have splits := splits_of_allFrom scanned
  clear scanned
  induction splits with
  | nil => exact .nil
  | blank blank _ ih => exact .blank blank ih
  | @token offset text rest kind tokens longest finite _ ih =>
    obtain ⟨c, tail, rfl⟩ := List.exists_cons_of_ne_nil longest.lexeme.ne_nil
    obtain ⟨visible, found⟩ := first_of_longest longest finite
    exact .token offset visible found ih

/-- Before a symbol or the end stands nothing that a name or numeral could go on with. -/
theorem Tokenized.gap {cs : List Char} {tokens : List Token} (tokenized : Tokenized cs tokens)
    (symbols : ∀ k ∈ (tokens.map (·.kind)).head?, ∃ s, k = .symbol s) : ∀ c ∈ cs.head?, Gap c := by
  intro c member
  cases tokenized with
  | nil => cases member
  | blank blank after =>
    cases member
    exact gap_of_isBlank blank
  | token offset visible found after =>
    cases member
    obtain ⟨s, rfl⟩ := symbols _ rfl
    cases firstToken found with
    | symbol mark same => exact same ▸ gap_symbol s

theorem Tokenized.isCalled_iff {cs : List Char} {tokens : List Token}
    (tokenized : Tokenized cs tokens) :
    isCalled cs = true ↔ (tokens.map (·.kind)).head? = some (.symbol .opening) := by
  induction tokenized with
  | nil => simp [isCalled, Text.trimStart]
  | @blank c rest tokens blank after ih =>
    have same : isCalled (c :: rest) = isCalled rest := by
      unfold isCalled Text.trimStart
      rw [List.dropWhile_cons_of_pos blank]
    rw [same, ih]
  | @token c tail rest kind tokens offset visible found after ih =>
    have called : isCalled (c :: tail ++ rest) = decide (c = '(') := by
      simp [isCalled, Text.trimStart, visible]
    rw [called, decide_eq_true_eq]
    cases firstToken found with
    | symbol mark same =>
      subst same
      cases mark <;> simp [Symbol.char]
    | number value starts =>
      have apart : c ≠ '(' := by
        rintro rfl
        exact absurd starts (by simp [startsNumeral])
      simp [apart]
    | name starts =>
      have apart : c ≠ '(' := by
        rintro rfl
        exact absurd starts (by decide)
      simp [apart]

/-! ## The renamed text -/

theorem stops_renameFrom {old fresh : List Char} (word : Word old) {before : Option Char}
    {rest : List Char} (gap : ∀ c ∈ rest.head?, Gap c) :
    Stops (renameFrom old fresh before 0 rest) := by
  cases rest with
  | nil =>
    rw [renameFrom_nil word]
    exact stops_nil
  | cons c rest =>
    rw [renameFrom_copy (standsAt_of_noStart word (gap c rfl).noStart)]
    exact stops_cons _ (gap c rfl).noName (gap c rfl).2

theorem first_number_again {c : Char} {tail rest other : List Char} {value : Float}
    (found : first c (tail ++ rest) = .ok (.number value, c :: tail)) (stops : Stops other) :
    first c (tail ++ other) = .ok (.number value, c :: tail) := by
  cases firstToken found with
  | number _ starts longest =>
    obtain ⟨whole, fraction, exponent, same, written, some⟩ := written_numeralPart starts
    have again : numeralPart (c :: (tail ++ other)) = c :: tail := by
      have text := longest.trans same
      have reread := numeralPart_again written stops
      rwa [← text, List.cons_append] at reread
    have startsAgain : startsNumeral c (tail ++ other) = true := by
      cases digit : c.isDigit with
      | true => simp [startsNumeral, digit]
      | false =>
        cases tail with
        | nil =>
          -- A point alone is no numeral: the digit after it belongs to it.
          simp only [startsNumeral, digit, Bool.false_or, Bool.and_eq_true, decide_eq_true_eq,
            List.nil_append] at starts
          obtain ⟨rfl, next⟩ := starts
          cases rest with
          | nil => cases next
          | cons d rest =>
            have digit : d.isDigit = true := by simpa using next
            simp [numeralPart, fractionPart, digit] at longest
        | cons d tail => simpa [startsNumeral, digit] using starts
    unfold first at found ⊢
    split at found
    · cases found
    · next noSymbol =>
      rw [if_pos starts] at found
      rw [if_pos startsAgain]
      dsimp only at found ⊢
      rw [← longest] at found
      rw [again]
      exact found

theorem Apart.symbol_after {a b : TokenKind} (apart : Apart a b) (word : ∀ s, a ≠ .symbol s) :
    ∃ s, b = .symbol s := by
  rcases apart with ⟨s, same⟩ | symbol
  · exact absurd same (word s)
  · exact symbol

theorem scans_renamed_name {old fresh text : String} (oldName : isName old = true)
    (freshName : isName fresh = true) (isText : isName text = true) {before : Option Char}
    {rest : List Char} {kinds : List TokenKind} (free : before.any Text.isWordCharacter = false)
    (gap : ∀ c ∈ rest.head?, Gap c)
    (called : isCalled rest = true ↔ kinds.head? = some (.symbol .opening))
    (following : ∀ before, Scans (renameFrom old.toList fresh.toList before 0 rest)
      (renameKinds old fresh kinds)) :
    Scans (renameFrom old.toList fresh.toList before 0 (text.toList ++ rest))
      (renameKinds old fresh (.name text :: kinds)) := by
  have word := word_of_isName oldName
  have stops : ∀ before, Stops (renameFrom old.toList fresh.toList before 0 rest) :=
    fun before => stops_renameFrom word gap
  have ends : rest.head?.any Text.isWordCharacter = false := by
    cases head : rest.head? with
    | none => rfl
    | some d => exact (gap d head).1
  by_cases same : text = old
  · subst same
    rw [renameFrom_same word free ends, renameKinds]
    cases open_next : isCalled rest with
    | true =>
      rw [if_pos rfl, if_neg fun both => both.2 (called.mp open_next)]
      exact scans_name oldName (stops _) (following _)
    | false =>
      have uncalled : kinds.head? ≠ some (.symbol .opening) := by
        intro opening
        rw [called.mpr opening] at open_next
        cases open_next
      rw [if_neg Bool.false_ne_true, if_pos ⟨rfl, uncalled⟩]
      exact scans_name freshName (stops _) (following _)
  · have apart : text.toList ≠ old.toList := fun letters => same (String.toList_inj.mp letters)
    rw [renameFrom_other word (word_of_isName isText) apart ends, renameKinds,
      if_neg fun both => same both.1]
    exact scans_name isText (stops _) (following _)

/-! ## Points of numerals -/

/-- If the token is a numeral, no point stands directly before the mark of its exponent. -/
def Plain (t : Token) : Prop :=
  ∀ value, t.kind = .number value → ¬ Pointed t.text.toList

instance (t : Token) : Decidable (Plain t) :=
  match kind : t.kind with
  | .number value => decidable_of_iff (¬ Pointed t.text.toList) (by simp [Plain, kind])
  | .name _ => isTrue (by simp [Plain, kind])
  | .symbol _ => isTrue (by simp [Plain, kind])

theorem Tokenized.behind_point {cs : List Char} {tokens : List Token}
    (tokenized : Tokenized cs tokens) (apart : (tokens.map (·.kind)).IsChain Apart)
    {front rest : List Char} {d : Char} (split : cs = front ++ '.' :: d :: rest)
    (starts : startsName d = true) : (d = 'e' ∨ d = 'E') ∧ ∃ t ∈ tokens, ¬ Plain t := by
  induction tokenized generalizing front with
  | nil => simp at split
  | blank blank after ih =>
    cases front with
    | nil =>
      obtain ⟨rfl, -⟩ := List.cons.inj split
      exact absurd blank (by decide)
    | cons _ front => exact ih apart (List.cons.inj split).2
  | @token c tail later kind tokens offset visible found after ih =>
    obtain ⟨here, apartLater⟩ := List.isChain_cons.mp apart
    have inLater (front : List Char) (split : later = front ++ '.' :: d :: rest) :
        (d = 'e' ∨ d = 'E') ∧ ∃ t ∈ ⟨kind, offset, String.ofList (c :: tail)⟩ :: tokens,
          ¬ Plain t :=
      (ih apartLater split).imp_right fun ⟨t, member, pointed⟩ =>
        ⟨t, List.mem_cons_of_mem _ member, pointed⟩
    rcases List.append_eq_append_iff.mp split with ⟨front, -, behind⟩ | ⟨behind, inside, next⟩
    · exact inLater front behind
    · cases behind with
      | nil => exact inLater [] next.symm
      | cons point more =>
        obtain ⟨rfl, following⟩ := List.cons.inj next
        have member : '.' ∈ c :: tail := inside ▸ by simp
        cases firstToken found with
        | symbol mark same =>
          rw [List.mem_singleton] at member
          exact absurd (member.trans same).symm (gap_symbol mark).2
        | number value numeral longest =>
          obtain ⟨whole, fraction, exponent, same, written, -⟩ := written_numeralPart numeral
          have ends : ∀ c ∈ later.head?, startsName c = false := fun c first =>
            (after.gap (fun k follows => (here k follows).symbol_after (by simp)) c first).noStart
          rw [longest, same] at inside
          obtain ⟨isMark, pointed⟩ := written.behind_point inside following.symm starts ends
          refine ⟨isMark, _, List.mem_cons_self, fun plain => plain value rfl ?_⟩
          rwa [String.toList_ofList, longest, same]
        | name begins longest =>
          rw [longest] at member
          rcases List.mem_cons.mp member with rfl | inTail
          · exact absurd begins (by decide)
          · exact absurd (List.mem_takeWhile_imp inTail) (by decide)

/-- The tokens of the renamed text are the renamed tokens. -/
theorem Tokenized.rename {old fresh : String} (oldName : isName old = true)
    (freshName : isName fresh = true) {cs : List Char} {tokens : List Token}
    (tokenized : Tokenized cs tokens) (apart : (tokens.map (·.kind)).IsChain Apart)
    (clear : replacesBehindPoint old.toList cs = false) {before : Option Char}
    (free : ∀ k ∈ (tokens.map (·.kind)).head?,
      (∃ s, k = .symbol s) ∨ before.any Text.isWordCharacter = false) :
    Scans (renameFrom old.toList fresh.toList before 0 cs)
      (renameKinds old fresh (tokens.map (·.kind))) := by
  have word := word_of_isName oldName
  induction tokenized generalizing before with
  | nil =>
    rw [renameFrom_nil word]
    exact scans_nil
  | @blank c rest tokens blank after ih =>
    have gap := gap_of_isBlank blank
    rw [renameFrom_copy (standsAt_of_noStart word gap.noStart)]
    exact scans_isBlank blank
      (ih apart (replacesBehindPoint_append [c] clear) fun k member => .inr gap.1)
  | @token c tail rest kind tokens offset visible found after ih =>
    obtain ⟨here, later⟩ := List.isChain_cons.mp apart
    have clearLater := replacesBehindPoint_append (c :: tail) clear
    -- What follows a numeral or a name starts with a symbol or ends the text.
    have symbols (word : ∀ s, kind ≠ .symbol s) :
        ∀ k ∈ (tokens.map (·.kind)).head?, ∃ s, k = .symbol s :=
      fun k member => (here k member).symbol_after word
    cases firstToken found with
    | symbol mark same =>
      subst same
      have gap := gap_symbol mark
      rw [List.cons_append, renameFrom_copy (standsAt_of_noStart word gap.noStart)]
      exact scans_symbol mark (ih later clearLater fun k member => .inr gap.1)
    | number value starts longest =>
      have symbols := symbols (fun s same => by cases same)
      obtain ⟨whole, fraction, exponent, same, written, some⟩ := written_numeralPart starts
      have copied : renameFrom old.toList fresh.toList before 0 (c :: tail ++ rest) =
          c :: tail ++ renameFrom old.toList fresh.toList (lastOf before (c :: tail)) 0 rest := by
        rw [longest, same] at clear ⊢
        exact renameFrom_written word written some clear
      rw [copied]
      have stops : Stops (renameFrom old.toList fresh.toList (lastOf before (c :: tail)) 0 rest) :=
        stops_renameFrom word (after.gap symbols)
      exact scans_first tail visible (first_number_again found stops)
        (ih later clearLater fun k member => .inl (symbols k member))
    | name starts longest =>
      have symbols := symbols (fun s same => by cases same)
      have isText : isName (String.ofList (c :: tail)) = true := by
        have continues : tail.all continuesName = true := by
          rw [(List.cons.inj longest).2]
          exact List.all_takeWhile
        simp [isName, starts, continues]
      have free : before.any Text.isWordCharacter = false := by
        refine (free _ rfl).resolve_left ?_
        rintro ⟨s, same⟩
        cases same
      have renamed := scans_renamed_name oldName freshName isText free (after.gap symbols)
        after.isCalled_iff
        (fun before => ih later clearLater fun k member => .inl (symbols k member))
      rwa [String.toList_ofList] at renamed

/-! ## The renamed tree -/

theorem isChain_between {s : Symbol} {ls rs : List TokenKind} (left : ls.IsChain Apart)
    (right : rs.IsChain Apart) : (ls ++ .symbol s :: rs).IsChain Apart := by
  refine List.isChain_append.mpr ⟨left, List.isChain_cons.mpr ⟨?_, right⟩, ?_⟩
  · exact fun k _ => .inl ⟨s, rfl⟩
  · intro _ _ k member
    cases member
    exact .inr ⟨s, rfl⟩

theorem isChain_intercalate {lists : List (List TokenKind)}
    (each : ∀ ks ∈ lists, ks.IsChain Apart) :
    ([.symbol .comma].intercalate lists).IsChain Apart := by
  induction lists with
  | nil => exact .nil
  | cons first rest ih =>
    obtain ⟨here, later⟩ := List.forall_mem_cons.mp each
    cases rest with
    | nil => simpa using here
    | cons second rest =>
      rw [List.intercalate_cons_cons, List.append_assoc]
      exact isChain_between here (ih later)

theorem Derives.apart {category : Category} {ks : List TokenKind} {e : Expr}
    (derived : Derives category ks e) : ks.IsChain Apart := by
  induction derived with
  | number value => exact .singleton _
  | name text => exact .singleton _
  | call function arguments each ih =>
    have inner : ([.symbol .comma].intercalate (arguments.map (·.1))).IsChain Apart := by
      refine isChain_intercalate fun ks member => ?_
      obtain ⟨a, listed, rfl⟩ := List.mem_map.mp member
      exact ih a listed
    exact isChain_between (.singleton (.name function)) (isChain_between inner .nil)
  | parentheses inner ih => exact isChain_between .nil (isChain_between ih .nil)
  | operand primary ih => exact ih
  | signed sign operand ih => exact isChain_between .nil ih
  | base unary ih => exact ih
  | raised base exponent ihBase ihExponent => exact isChain_between ihBase ihExponent
  | factor power ih => exact ih
  | product scaling left right ihLeft ihRight => exact isChain_between ihLeft ihRight
  | term product ih => exact ih
  | sum sign left right ihLeft ihRight => exact isChain_between ihLeft ihRight

theorem renameKinds_append {old fresh : String} {s : Symbol} (noCall : s ≠ .opening)
    (ls rs : List TokenKind) : renameKinds old fresh (ls ++ .symbol s :: rs) =
      renameKinds old fresh ls ++ .symbol s :: renameKinds old fresh rs := by
  induction ls with
  | nil => rfl
  | cons k ls ih =>
    cases k with
    | number value => exact congrArg (_ :: ·) ih
    | symbol mark => exact congrArg (_ :: ·) ih
    | name text =>
      have next : (ls ++ .symbol s :: rs).head? ≠ some (.symbol .opening) ↔
          ls.head? ≠ some (.symbol .opening) := by
        cases ls with
        | nil => simpa using noCall
        | cons k ls => rfl
      rw [List.cons_append, renameKinds, renameKinds, ih, List.cons_append]
      simp only [next]

theorem renameKinds_intercalate {old fresh : String} (lists : List (List TokenKind)) :
    renameKinds old fresh ([.symbol .comma].intercalate lists) =
      [.symbol .comma].intercalate (lists.map (renameKinds old fresh)) := by
  induction lists with
  | nil => rfl
  | cons first rest ih =>
    cases rest with
    | nil => simp
    | cons second rest =>
      rw [List.intercalate_cons_cons, List.append_assoc, List.map_cons, List.map_cons,
        List.intercalate_cons_cons, List.append_assoc, ← List.map_cons, ← ih]
      exact renameKinds_append (by decide) first _

def renamed (old fresh name : String) : String :=
  if name = old then fresh else name

theorem Derives.renamed {old fresh : String} {category : Category} {ks : List TokenKind}
    {e : Expr} (derived : Derives category ks e) :
    Derives category (renameKinds old fresh ks) (e.rename (renamed old fresh)) := by
  induction derived with
  | number value => exact .number value
  | name text =>
    have alone : renameKinds old fresh [.name text] = [.name (Formula.renamed old fresh text)] := by
      simp [renameKinds, Formula.renamed]
    rw [alone]
    exact .name _
  | call function arguments each ih =>
    have renamedCall : ∀ ks, renameKinds old fresh (.name function :: .symbol .opening :: ks) =
        .name function :: .symbol .opening :: renameKinds old fresh ks := by
      intro ks
      simp [renameKinds]
    have again := Derives.call function
      (arguments.map fun a => (renameKinds old fresh a.1, a.2.rename (Formula.renamed old fresh)))
      (List.forall_mem_map.mpr ih)
    rw [renamedCall, renameKinds_append (by decide), renameKinds_intercalate, Expr.rename,
      Expr.renameAll_eq]
    simpa [Function.comp_def, renameKinds] using again
  | parentheses inner ih =>
    have opened : ∀ ks, renameKinds old fresh (.symbol .opening :: ks) =
        .symbol .opening :: renameKinds old fresh ks := fun ks => rfl
    rw [opened, renameKinds_append (by decide)]
    exact .parentheses ih
  | operand primary ih => exact .operand ih
  | signed sign operand ih => exact .signed sign ih
  | base unary ih => exact .base ih
  | raised base exponent ihBase ihExponent =>
    rw [renameKinds_append (by decide)]
    exact .raised ihBase ihExponent
  | factor power ih => exact .factor ih
  | product scaling left right ihLeft ihRight =>
    rw [renameKinds_append (by cases scaling <;> decide)]
    exact .product scaling ihLeft ihRight
  | term product ih => exact .term ih
  | sum sign left right ihLeft ihRight =>
    rw [renameKinds_append (by cases sign <;> decide)]
    exact .sum sign ihLeft ihRight

/-- The text of a formula that parses and has no numeral with a point directly before the
mark of its exponent. -/
structure Clean (source : String) (e : Expr) : Prop where
  parsed : parse source = .ok e
  plain : ∀ tokens, Token.all source = .ok tokens → ∀ t ∈ tokens, Plain t

section

variable {source old fresh : String} {takes : String → Bool} {e : Expr}

theorem rename_of_taken (taken : takes old = true) : rename source old fresh takes =
    String.ofList (renameFrom old.toList fresh.toList none 0 source.toList) :=
  if_pos taken

theorem rename_of_refused (refused : takes old = false) :
    rename source old fresh takes = source := by
  rw [rename, refused, if_neg Bool.false_ne_true]

theorem parse_rename (parsed : parse source = .ok e) (oldName : isName old = true)
    (freshName : isName fresh = true) (taken : takes old = true)
    (clear : replacesBehindPoint old.toList source.toList = false) :
    parse (rename source old fresh takes) = .ok (e.rename (renamed old fresh)) := by
  obtain ⟨tokens, scanned, derived⟩ := parse_eq_ok.mp parsed
  have scans : Scans (renameFrom old.toList fresh.toList none 0 source.toList) _ :=
    (tokenized_of_allFrom scanned).rename oldName freshName derived.apart clear
      fun _ _ => .inr rfl
  refine parse_of_scans ?_ derived.renamed
  rwa [rename_of_taken taken, String.toList_ofList]

theorem Clean.parse_rename (clean : Clean source e) (oldName : isName old = true)
    (freshName : isName fresh = true) (taken : takes old = true) :
    parse (rename source old fresh takes) = .ok (e.rename (renamed old fresh)) := by
  refine Formula.parse_rename clean.parsed oldName freshName taken ?_
  by_contra replaced
  obtain ⟨front, cs, split, there⟩ :=
    replacesBehindPoint_eq_true.mp (Bool.not_eq_false _ ▸ replaced)
  obtain ⟨d, rest, rfl, starts, -⟩ := exists_of_replacesAt (word_of_isName oldName) there
  obtain ⟨tokens, scanned, derived⟩ := parse_eq_ok.mp clean.parsed
  obtain ⟨-, t, member, pointed⟩ :=
    (tokenized_of_allFrom scanned).behind_point derived.apart split starts
  exact pointed (clean.plain tokens scanned t member)

end

/-! ## The value of the renamed formula -/

/-- What a look-up has under a name another has under the changed name; a name that changes
has a value, so no constant stands behind it. -/
def Carries (change : String → String) (first second : String → Option Float)
    (name : String) : Prop :=
  second (change name) = first name ∧ (change name = name ∨ (first name).isSome = true)

theorem evalExpr_rename {change : String → String} {first second : String → Option Float}
    {e : Expr} (carries : ∀ name ∈ e.mentions, Carries change first second name) :
    evalExpr second (e.rename change) = evalExpr first e := by
  induction e with
  | number value => rfl
  | name text =>
    obtain ⟨same, kept | valued⟩ := carries text (by simp [Expr.mentions])
    · rw [Expr.rename, kept, evalExpr, evalExpr, ← same, kept]
    · obtain ⟨value, found⟩ := Option.isSome_iff_exists.mp valued
      rw [Expr.rename, evalExpr, evalExpr, same, found]
      rfl
  | signed sign operand ih =>
    have operand := ih carries
    cases sign <;> rw [Expr.rename, evalExpr, evalExpr, operand]
  | binary operator left right ihLeft ihRight =>
    have left := ihLeft fun name member => carries name (List.mem_append_left _ member)
    have right := ihRight fun name member => carries name (List.mem_append_right _ member)
    rw [Expr.rename, evalExpr, evalExpr, left, right]
  | call function arguments ih =>
    have values : evalAll second (Expr.renameAll change arguments) = evalAll first arguments := by
      rw [Expr.renameAll_eq, evalAll_eq, evalAll_eq, List.mapM_map]
      exact mapM_congr fun a member => ih a member fun name mentioned =>
        carries name (Expr.mem_mentions_call member mentioned)
    rw [Expr.rename, evalExpr, evalExpr, values]

theorem evaluate_renamed {source other : String} {e : Expr} {change : String → String}
    {first second : String → Option Float} (parsed : parse source = .ok e)
    (parsedOther : parse other = .ok (e.rename change))
    (carries : ∀ name ∈ e.mentions, Carries change first second name) :
    evaluate other second = evaluate source first := by
  have value := evalExpr_rename carries
  rw [evaluate, parsedOther, evaluate, parsed]
  simp only [value]

end Formula

end Parametric
