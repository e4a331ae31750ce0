import Parametric.Proofs.Formula.Parsing
import Parametric.Proofs.Formula.Scanning
/-! A syntax error stands where no formula can go on.

Every state of the parser can be completed: an operand is put in where one is missing,
and each open parenthesis is closed. So the tokens before an error can go on to a formula,
and with the token of the error they cannot, since the parser sees one token at a time.
The levels of a state are the parentheses that are open; all others stand in pairs.
-/

set_option autoImplicit false

namespace Parametric

namespace Formula

/-! ## Tokens that can go on -/

/-- Some list of tokens that starts with these parses. -/
def Viable (tokens : List Token) : Prop :=
  ∃ more length e, parseTokens (tokens ++ more) length = .ok e

namespace State

variable {state next : State} {t : Token}

/-- Some tokens lead from the state to the end of a formula. -/
def Completable (state : State) : Prop :=
  ∃ (tokens : List Token) (final : State) (e : Expr),
    tokens.foldlM step state = .ok final ∧ ∀ length, final.finish length = .ok e

theorem Completable.of_step (completable : next.Completable) (taken : state.step t = .ok next) :
    state.Completable := by
  obtain ⟨tokens, final, e, run, finishes⟩ := completable
  refine ⟨t :: tokens, final, e, ?_, finishes⟩
  rw [List.foldlM_cons, taken]
  exact run

def zero : Token := ⟨.number 0.0, 0, "0"⟩

def closing : Token := ⟨.symbol .closing, 0, ")"⟩

theorem holding_completable (operand : Expr) (chains : Chains) (outer : List Level) :
    (holding operand chains outer).Completable := by
  induction outer generalizing operand chains with
  | nil => exact ⟨[], _, chains.close operand, rfl, fun _ => rfl⟩
  | cons level outer ih => exact (ih _ _).of_step (t := closing) rfl

theorem completable (state : State) : state.Completable := by
  cases state with
  | expecting signs chains outer => exact (holding_completable _ _ _).of_step (t := zero) rfl
  | named text signs chains outer =>
    cases outer with
    | nil => exact ⟨[], _, chains.close (applySigns signs (.name text)), rfl, fun _ => rfl⟩
    | cons level outer => exact (holding_completable _ _ _).of_step (t := closing) rfl
  | called function offset signs chains outer =>
    exact (holding_completable _ _ _).of_step (t := closing) rfl
  | holding operand chains outer => exact holding_completable operand chains outer

end State

theorem viable_of_run {tokens : List Token} {state : State}
    (run : tokens.foldlM State.step .start = .ok state) : Viable tokens := by
  obtain ⟨more, final, e, onward, finishes⟩ := state.completable
  have all : (tokens ++ more).foldlM State.step .start = .ok final := by
    rw [List.foldlM_append, run]
    exact onward
  refine ⟨more, 0, e, ?_⟩
  rw [parseTokens, all]
  exact finishes 0

theorem not_viable_of_error {before : List Token} {t : Token} {state : State} {e : SyntaxError}
    (run : before.foldlM State.step .start = .ok state) (failed : state.step t = .error e) :
    ¬ Viable (before ++ [t]) := by
  rintro ⟨more, length, tree, parsed⟩
  have all : (before ++ [t] ++ more).foldlM State.step .start = .error e := by
    rw [List.append_assoc, List.foldlM_append, run]
    change (t :: more).foldlM State.step state = .error e
    rw [List.foldlM_cons, failed]
    rfl
  rw [parseTokens, all] at parsed
  cases parsed

/-! ## What the parser makes of a token -/

namespace State

variable {t : Token} {signs : List Sign} {operand : Expr} {chains : Chains}

def opened : State → List Nat
  | expecting _ _ outer | named _ _ _ outer | holding _ _ outer => outer.map (·.offset)
  | called _ offset _ _ outer => offset :: outer.map (·.offset)

/-- What a token makes of the open parentheses. -/
inductive Turns (t : Token) : List Nat → List Nat → Prop where
  | opens {offsets : List Nat} (kind : t.kind = .symbol .opening) :
      Turns t offsets (t.offset :: offsets)
  | closes {offset : Nat} {offsets : List Nat} (kind : t.kind = .symbol .closing) :
      Turns t (offset :: offsets) offsets
  | keeps {offsets : List Nat} (noOpening : t.kind ≠ .symbol .opening)
      (noClosing : t.kind ≠ .symbol .closing) : Turns t offsets offsets

inductive Reading (t : Token) (offsets : List Nat) : Except SyntaxError State → Prop where
  | takes {next : State} (turns : Turns t offsets next.opened) : Reading t offsets (.ok next)
  | refuses : Reading t offsets (.error ⟨.unexpectedToken t.text, t.offset⟩)
  | overcloses (kind : t.kind = .symbol .closing) :
      Reading t offsets (.error ⟨.unbalancedParenthesis, t.offset⟩)

theorem startOperand_reading (outer : List Level) :
    Reading t (outer.map (·.offset)) (startOperand signs chains outer t) := by
  unfold startOperand
  split
  · next kind => exact .takes (.keeps (by simp [kind]) (by simp [kind]))
  · next kind => exact .takes (.keeps (by simp [kind]) (by simp [kind]))
  · next kind => exact .takes (.keeps (by simp [kind]) (by simp [kind]))
  · next kind => exact .takes (.keeps (by simp [kind]) (by simp [kind]))
  · next kind => exact .takes (.opens kind)
  · exact .refuses

theorem afterOperand_reading (outer : List Level) :
    Reading t (outer.map (·.offset)) (afterOperand operand chains outer t) := by
  unfold afterOperand
  split
  · next kind => exact .takes (.keeps (by simp [kind]) (by simp [kind]))
  · next kind => exact .takes (.keeps (by simp [kind]) (by simp [kind]))
  · next kind => exact .takes (.keeps (by simp [kind]) (by simp [kind]))
  · next kind => exact .takes (.keeps (by simp [kind]) (by simp [kind]))
  · next kind => exact .takes (.keeps (by simp [kind]) (by simp [kind]))
  · next kind => exact .overcloses kind
  · next kind => exact .takes (.closes kind)
  · next kind =>
    split
    · exact .takes (.keeps (by simp [kind]) (by simp [kind]))
    · exact .refuses
  · exact .refuses

theorem step_reading (state : State) (t : Token) : Reading t state.opened (state.step t) := by
  cases state with
  | expecting signs chains outer => exact startOperand_reading outer
  | named text signs chains outer =>
    simp only [step]
    split
    · next kind => exact .takes (.opens kind)
    · exact afterOperand_reading outer
  | called function offset signs chains outer =>
    simp only [step]
    split
    · next kind => exact .takes (.closes kind)
    · exact startOperand_reading (⟨some (function, []), offset, signs, chains⟩ :: outer)
  | holding operand chains outer => exact afterOperand_reading outer

theorem finish_error {state : State} {length : Nat} {e : SyntaxError}
    (failed : state.finish length = .error e) :
    e = ⟨.unexpectedEnd, length⟩ ∨
      ∃ offset outer, state.opened = offset :: outer ∧ e = ⟨.unbalancedParenthesis, offset⟩ := by
  unfold finish at failed
  split at failed
  · cases failed
    exact .inl rfl
  · cases failed
    exact .inl rfl
  · next text signs chains outer =>
    cases outer with
    | nil => cases failed
    | cons level outer => cases failed; exact .inr ⟨_, _, rfl, rfl⟩
  · next operand chains outer =>
    cases outer with
    | nil => cases failed
    | cons level outer => cases failed; exact .inr ⟨_, _, rfl, rfl⟩

end State

/-! ## Parentheses in pairs -/

/-- Each parenthesis has its partner. -/
inductive Paired : List TokenKind → Prop where
  | nil : Paired []
  | other {k : TokenKind} {ks : List TokenKind} (noOpening : k ≠ .symbol .opening)
      (noClosing : k ≠ .symbol .closing) (behind : Paired ks) : Paired (k :: ks)
  | pair {inner ks : List TokenKind} (within : Paired inner) (behind : Paired ks) :
      Paired (.symbol .opening :: (inner ++ .symbol .closing :: ks))

theorem Paired.append {first second : List TokenKind} (paired : Paired first)
    (behind : Paired second) : Paired (first ++ second) := by
  induction paired with
  | nil => exact behind
  | other noOpening noClosing _ ih => exact .other noOpening noClosing ih
  | pair within _ _ ih =>
    rw [List.cons_append, List.append_assoc, List.cons_append]
    exact .pair within ih

/-- How many parentheses are open behind the tokens, unless one was closed that was not open. -/
def openAfter : Nat → List TokenKind → Option Nat
  | depth, [] => some depth
  | depth, .symbol .opening :: ks => openAfter (depth + 1) ks
  | 0, .symbol .closing :: _ => none
  | depth + 1, .symbol .closing :: ks => openAfter depth ks
  | depth, _ :: ks => openAfter depth ks

theorem openAfter_other {k : TokenKind} (noOpening : k ≠ .symbol .opening)
    (noClosing : k ≠ .symbol .closing) (depth : Nat) (ks : List TokenKind) :
    openAfter depth (k :: ks) = openAfter depth ks := by
  rw [openAfter]
  · exact noOpening
  · exact fun _ => noClosing
  · exact fun _ _ => noClosing

theorem Paired.openAfter_append {ks : List TokenKind} (paired : Paired ks) (depth : Nat)
    (more : List TokenKind) : openAfter depth (ks ++ more) = openAfter depth more := by
  induction paired generalizing depth more with
  | nil => rfl
  | other noOpening noClosing _ ih =>
    rw [List.cons_append, openAfter_other noOpening noClosing, ih]
  | pair _ _ ihWithin ihBehind =>
    rw [List.cons_append, List.append_assoc, List.cons_append, openAfter, ihWithin, openAfter,
      ihBehind]

/-- In front of a parenthesis that closes one further out, not all are paired. -/
theorem Paired.not_paired {inner ks : List TokenKind}
    (paired : Paired (inner ++ .symbol .closing :: ks)) : ¬ Paired inner := by
  intro within
  have whole : openAfter 0 (inner ++ .symbol .closing :: ks) = some 0 := by
    simpa [openAfter] using paired.openAfter_append 0 []
  rw [within.openAfter_append, openAfter] at whole
  cases whole

/-- Parentheses are open at these offsets, the innermost first, and all others are paired. -/
inductive Nested : List Nat → List Token → Prop where
  | outermost {tokens : List Token} (paired : Paired (tokens.map (·.kind))) : Nested [] tokens
  | inside {outer : List Nat} {before inner : List Token} {t : Token} (nested : Nested outer before)
      (opening : t.kind = .symbol .opening) (paired : Paired (inner.map (·.kind))) :
      Nested (t.offset :: outer) (before ++ t :: inner)

theorem Nested.append {offsets : List Nat} {tokens more : List Token}
    (nested : Nested offsets tokens) (paired : Paired (more.map (·.kind))) :
    Nested offsets (tokens ++ more) := by
  cases nested with
  | outermost before =>
    refine .outermost ?_
    rw [List.map_append]
    exact before.append paired
  | inside nested opening before =>
    rw [List.append_assoc, List.cons_append]
    refine .inside nested opening ?_
    rw [List.map_append]
    exact before.append paired

theorem Nested.turns {offsets after : List Nat} {tokens : List Token} {t : Token}
    (nested : Nested offsets tokens) (turns : State.Turns t offsets after) :
    Nested after (tokens ++ [t]) := by
  cases turns with
  | opens kind => exact .inside nested kind .nil
  | closes kind =>
    cases nested with
    | @inside _ before inner t' nested opening paired =>
      rw [List.append_assoc]
      refine nested.append ?_
      simpa [opening, kind] using Paired.pair paired .nil
  | keeps noOpening noClosing => exact nested.append (.other noOpening noClosing .nil)

theorem Nested.run {state final : State} {before tokens : List Token}
    (nested : Nested state.opened before) (run : tokens.foldlM State.step state = .ok final) :
    Nested final.opened (before ++ tokens) := by
  induction tokens generalizing state before with
  | nil =>
    cases run
    rwa [List.append_nil]
  | cons t rest ih =>
    rw [List.foldlM_cons] at run
    obtain ⟨next, taken, later⟩ := ok_of_bind run
    have reading := state.step_reading t
    rw [taken] at reading
    cases reading with
    | takes turns =>
      have onward := ih (nested.turns turns) later
      rwa [List.append_assoc] at onward

/-! ## The place of an error -/

/-- The first token with which no formula can go on. -/
def FirstWrong (before : List Token) (t : Token) : Prop :=
  Viable before ∧ ¬ Viable (before ++ [t])

/-- No closing parenthesis behind an opening one is its partner. -/
def Unmatched (after : List Token) : Prop :=
  ∀ inner rest, after.map (·.kind) = inner ++ .symbol .closing :: rest → ¬ Paired inner

/-- What a syntax error of a text that splits into tokens says about them. -/
def Places (e : SyntaxError) (tokens : List Token) (length : Nat) : Prop :=
  match e.fault with
  | .unexpectedToken text => ∃ before t after, tokens = before ++ t :: after ∧
      t.offset = e.offset ∧ t.text = text ∧ FirstWrong before t
  | .unbalancedParenthesis => ∃ before t after, tokens = before ++ t :: after ∧
      t.offset = e.offset ∧
        (t.kind = .symbol .closing ∧ FirstWrong before t ∨
          t.kind = .symbol .opening ∧ Viable tokens ∧ Unmatched after)
  | .unexpectedEnd => e.offset = length ∧ Viable tokens
  | .unexpectedCharacter _ | .numberOutOfRange _ => False

theorem places_of_step_error {before after : List Token} {t : Token} {state : State}
    {e : SyntaxError} (run : before.foldlM State.step .start = .ok state)
    (failed : state.step t = .error e) (length : Nat) : Places e (before ++ t :: after) length := by
  have wrong : FirstWrong before t := ⟨viable_of_run run, not_viable_of_error run failed⟩
  have reading := state.step_reading t
  rw [failed] at reading
  cases reading with
  | refuses => exact ⟨before, t, after, rfl, rfl, rfl, wrong⟩
  | overcloses kind => exact ⟨before, t, after, rfl, rfl, .inl ⟨kind, wrong⟩⟩

theorem places_of_finish_error {tokens : List Token} {state : State} {length : Nat}
    {e : SyntaxError} (run : tokens.foldlM State.step .start = .ok state)
    (failed : state.finish length = .error e) : Places e tokens length := by
  have viable := viable_of_run run
  rcases State.finish_error failed with rfl | ⟨offset, outer, opened, rfl⟩
  · exact ⟨rfl, viable⟩
  · have start : Nested State.start.opened [] := .outermost .nil
    have nested := start.run run
    rw [opened, List.nil_append] at nested
    cases nested with
    | @inside _ before inner t _ opening paired =>
      refine ⟨before, t, inner, rfl, rfl, .inr ⟨opening, viable, fun ks rest split => ?_⟩⟩
      exact Paired.not_paired (split ▸ paired)

/-- A syntax error of a text that splits into tokens stands where no formula can go on: at the
first token that no formula has behind those before it, or at the end of the text if more tokens
can complete it, and then at the innermost parenthesis that is not closed, if an operand stands
last. Tokens stand one behind the other, so the place tells the token. -/
theorem error_places {source : String} {tokens : List Token} {e : SyntaxError}
    (scanned : Token.all source = .ok tokens) (failed : parse source = .error e) :
    tokens.Pairwise (·.offset < ·.offset) ∧ Places e tokens source.utf8ByteSize := by
  refine ⟨(Token.allFrom_rising scanned).1, ?_⟩
  rw [parse, scanned] at failed
  change parseTokens tokens _ = .error e at failed
  rcases error_of_bind failed with stopped | ⟨state, run, unfinished⟩
  · obtain ⟨before, t, after, state, rfl, run, refused⟩ := error_of_foldlM stopped
    exact places_of_step_error run refused _
  · exact places_of_finish_error run unfinished

theorem error_places_open : ∃ tokens, Token.all "(a) + (b" = .ok tokens ∧
    parse "(a) + (b" = .error ⟨.unbalancedParenthesis, 6⟩ ∧
    Places ⟨.unbalancedParenthesis, 6⟩ tokens 8 := by
  have scanned : Token.all "(a) + (b" = .ok [⟨.symbol .opening, 0, "("⟩, ⟨.name "a", 1, "a"⟩,
      ⟨.symbol .closing, 2, ")"⟩, ⟨.symbol .plus, 4, "+"⟩, ⟨.symbol .opening, 6, "("⟩,
      ⟨.name "b", 7, "b"⟩] := by
    cbv
  have failed : parse "(a) + (b" = .error ⟨.unbalancedParenthesis, 6⟩ := by
    cbv
  exact ⟨_, scanned, failed, (error_places scanned failed).2⟩

end Formula

end Parametric
