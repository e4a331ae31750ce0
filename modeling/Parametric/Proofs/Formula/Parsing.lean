import Parametric.Proofs.Formula.Grammar
import Parametric.Proofs.Formula.Scanning
/-! The parser accepts exactly the grammar of formulas.

Soundness: the tokens taken so far spell out the state, so a finished state
derives its tree. Completeness: from a state that expects an operand, the tokens
of a derivation lead to a state that holds the tree of that derivation. Each
token list has at most one tree, since the parser is a function.
-/

set_option autoImplicit false

namespace Parametric.Formula

namespace State

/-! ## What has been read -/

def Around (chains : Chains) (outer : List Level) (ks : List TokenKind) : Prop :=
  ∃ os cs, Opened outer os ∧ chains.Spelled cs ∧ ks = os ++ cs

/-- The tokens that lead to a state. -/
def Spelled : State → List TokenKind → Prop
  | expecting signs chains outer, ks => ∃ before, Around chains outer before ∧
      ks = before ++ signKinds signs
  | named text signs chains outer, ks => ∃ before, Around chains outer before ∧
      ks = before ++ (signKinds signs ++ [.name text])
  | called function _ signs chains outer, ks => ∃ before, Around chains outer before ∧
      ks = before ++ signKinds signs ++ [.name function, .symbol .opening]
  | holding operand chains outer, ks => ∃ before rs, Around chains outer before ∧
      Derives .unary rs operand ∧ ks = before ++ rs

theorem start_spelled : start.Spelled [] :=
  ⟨[], ⟨[], [], rfl, Chains.empty_spelled, rfl⟩, rfl⟩

theorem Around.opened {chains : Chains} {outer : List Level} {before hs : List TokenKind}
    (around : Around chains outer before) (level : Level) (same : level.chains = chains)
    (head : level.Spelled hs) :
    Opened (level :: outer) (before ++ signKinds level.signs ++ hs) := by
  obtain ⟨os, cs, opened, spelled, rfl⟩ := around
  exact ⟨os, cs, hs, opened, same ▸ spelled, head, rfl⟩

theorem startOperand_spelled {signs : List Sign} {chains : Chains} {outer : List Level} {t : Token}
    {state : State} {before : List TokenKind} (around : Around chains outer before)
    (taken : startOperand signs chains outer t = .ok state) :
    state.Spelled (before ++ signKinds signs ++ [t.kind]) := by
  unfold startOperand at taken
  split at taken <;> cases taken
  · next value kind =>
    have operand : Derives .unary [t.kind] (.number value) := kind ▸ .operand (.number value)
    exact ⟨before, _, around, applySigns_derives operand, by simp⟩
  · next text kind => exact ⟨before, around, by simp [kind]⟩
  · next kind => exact ⟨before, around, by simp [kind, Sign.symbol]⟩
  · next kind => exact ⟨before, around, by simp [kind, Sign.symbol]⟩
  · next kind =>
    have opened := around.opened ⟨none, t.offset, signs, chains⟩ rfl rfl
    exact ⟨_, ⟨_, [], opened, Chains.empty_spelled, rfl⟩, by simp [kind]⟩

theorem close_spelled {level : Level} {outer : List Level} {chains : Chains}
    {before ks : List TokenKind} {e : Expr} (around : Around chains (level :: outer) before)
    (operand : Derives .unary ks e) :
    (holding (level.close (chains.close e)) level.chains outer).Spelled
      (before ++ ks ++ [.symbol .closing]) := by
  obtain ⟨_, cs, ⟨os, ls, hs, opened, waits, head, rfl⟩, spelled, rfl⟩ := around
  have inner := chains.close_derives spelled operand
  exact ⟨os ++ ls, _, ⟨os, ls, opened, waits, rfl⟩, level.close_derives head inner, by simp⟩

theorem comma_spelled {level : Level} {outer : List Level} {chains : Chains} {function : String}
    {finished : List Expr} {before ks : List TokenKind} {e : Expr}
    (callee : level.callee = some (function, finished))
    (around : Around chains (level :: outer) before) (operand : Derives .unary ks e) :
    (expecting [] .empty
      ({ level with callee := some (function, chains.close e :: finished) } :: outer)).Spelled
      (before ++ ks ++ [.symbol .comma]) := by
  obtain ⟨_, cs, ⟨os, ls, hs, opened, waits, head, rfl⟩, spelled, rfl⟩ := around
  have inner := chains.close_derives spelled operand
  have head := level.spelled_comma callee head inner
  exact ⟨_, ⟨_, [], ⟨os, ls, _, opened, waits, head, rfl⟩, Chains.empty_spelled, rfl⟩, by simp⟩

theorem afterOperand_spelled {operand : Expr} {chains : Chains} {outer : List Level} {t : Token}
    {state : State} {before ks : List TokenKind} (around : Around chains outer before)
    (derived : Derives .unary ks operand)
    (taken : afterOperand operand chains outer t = .ok state) :
    state.Spelled (before ++ ks ++ [t.kind]) := by
  -- An operator closes the chains it binds weaker than, and waits in its own.
  have inChain : ∀ {next : Chains} {symbol : Symbol}, t.kind = .symbol symbol →
      (∀ cs, chains.Spelled cs → next.Spelled (cs ++ ks ++ [.symbol symbol])) →
      (expecting [] next outer).Spelled (before ++ ks ++ [t.kind]) := by
    intro next symbol kind grown
    obtain ⟨os, cs, opened, spelled, rfl⟩ := around
    exact ⟨_, ⟨os, _, opened, grown cs spelled, rfl⟩, by simp [kind]⟩
  unfold afterOperand at taken
  split at taken
  · next kind => cases taken; exact inChain kind fun _ s => Chains.spelled_sum .plus s derived
  · next kind => cases taken; exact inChain kind fun _ s => Chains.spelled_sum .minus s derived
  · next kind =>
    cases taken; exact inChain kind fun _ s => Chains.spelled_product .multiply s derived
  · next kind => cases taken; exact inChain kind fun _ s => Chains.spelled_product .divide s derived
  · next kind => cases taken; exact inChain kind fun _ s => Chains.spelled_power s derived
  · cases taken
  · next kind => cases taken; rw [kind]; exact close_spelled around derived
  · next kind =>
    split at taken <;> cases taken
    next callee => rw [kind]; exact comma_spelled callee around derived
  · cases taken

theorem step_spelled {state next : State} {t : Token} {ks : List TokenKind}
    (spelled : state.Spelled ks) (taken : state.step t = .ok next) :
    next.Spelled (ks ++ [t.kind]) := by
  cases state with
  | expecting signs chains outer =>
    obtain ⟨before, around, rfl⟩ := spelled
    exact startOperand_spelled around taken
  | named text signs chains outer =>
    obtain ⟨before, around, rfl⟩ := spelled
    simp only [step] at taken
    split at taken
    · next kind => cases taken; exact ⟨before, around, by simp [kind]⟩
    · exact afterOperand_spelled around (applySigns_derives (.operand (.name text))) taken
  | called function offset signs chains outer =>
    obtain ⟨before, around, rfl⟩ := spelled
    simp only [step] at taken
    split at taken
    · next kind =>
      cases taken
      have empty : Derives .unary [.name function, .symbol .opening, .symbol .closing]
          (.call function []) := .operand (.call function [] (by simp))
      exact ⟨before, _, around, applySigns_derives empty, by simp [kind]⟩
    · have opened := around.opened ⟨some (function, []), offset, signs, chains⟩ rfl
        ⟨[], by simp, rfl, rfl⟩
      have start := startOperand_spelled ⟨_, [], opened, Chains.empty_spelled, rfl⟩ taken
      simpa [argumentKinds] using start
  | holding operand chains outer =>
    obtain ⟨before, rs, around, derived, rfl⟩ := spelled
    exact afterOperand_spelled around derived taken

theorem run_spelled {tokens : List Token} {state final : State} {ks : List TokenKind}
    (spelled : state.Spelled ks) (run : tokens.foldlM step state = .ok final) :
    final.Spelled (ks ++ tokens.map (·.kind)) := by
  induction tokens generalizing state ks with
  | nil =>
    cases run
    simpa using spelled
  | cons t rest ih =>
    rw [List.foldlM_cons] at run
    cases taken : state.step t with
    | error e => rw [taken] at run; cases run
    | ok next =>
      rw [taken] at run
      have spelledRest := ih (step_spelled spelled taken) run
      simpa using spelledRest

theorem finish_derives {state : State} {length : Nat} {e : Expr} {ks : List TokenKind}
    (spelled : state.Spelled ks) (finished : state.finish length = .ok e) :
    Derives .additive ks e := by
  -- The end of the text closes the chains of the outermost level, and no parenthesis.
  have outermost : ∀ {operand : Expr} {chains : Chains} {before rs : List TokenKind},
      Around chains [] before → Derives .unary rs operand →
      Derives .additive (before ++ rs) (chains.close operand) := by
    rintro operand chains _ rs ⟨_, cs, rfl, spelled, rfl⟩ derived
    exact chains.close_derives spelled derived
  unfold finish at finished
  split at finished
  · cases finished
  · cases finished
  · next text signs chains outer =>
    obtain ⟨before, around, rfl⟩ := spelled
    cases outer with
    | nil => cases finished; exact outermost around (applySigns_derives (.operand (.name text)))
    | cons level outer => cases finished
  · next operand chains outer =>
    obtain ⟨before, rs, around, derived, rfl⟩ := spelled
    cases outer with
    | nil => cases finished; exact outermost around derived
    | cons level outer => cases finished

end State

/-! ## What a derivation leads to -/

namespace State

def Reads (state : State) (ks : List TokenKind) (goal : State → Prop) : Prop :=
  ∀ tokens : List Token, tokens.map (·.kind) = ks →
    ∃ final, tokens.foldlM step state = .ok final ∧ goal final

section

variable {state : State} {ls ks : List TokenKind} {middle goal : State → Prop}

theorem reads_nil (holds : goal state) : Reads state [] goal := by
  intro tokens kinds
  obtain rfl := List.map_eq_nil_iff.mp kinds
  exact ⟨state, rfl, holds⟩

theorem reads_cons {k : TokenKind}
    (taken : ∀ t : Token, t.kind = k → ∃ next, state.step t = .ok next ∧ Reads next ks goal) :
    Reads state (k :: ks) goal := by
  intro tokens kinds
  obtain ⟨t, rest, rfl, kind, kinds⟩ := List.map_eq_cons_iff.mp kinds
  obtain ⟨next, step, reads⟩ := taken t kind
  obtain ⟨final, run, holds⟩ := reads rest kinds
  refine ⟨final, ?_, holds⟩
  rw [List.foldlM_cons, step]
  exact run

theorem Reads.append (first : Reads state ls middle)
    (rest : ∀ s, middle s → Reads s ks goal) : Reads state (ls ++ ks) goal := by
  intro tokens kinds
  obtain ⟨before, after, rfl, left, right⟩ := List.map_eq_append_iff.mp kinds
  obtain ⟨s, runFirst, holdsFirst⟩ := first before left
  obtain ⟨final, run, holds⟩ := rest s holdsFirst after right
  refine ⟨final, ?_, holds⟩
  rw [List.foldlM_append, runFirst]
  exact run

-- After the parenthesis of a call the first argument starts as after any other, unless the
-- call is closed at once.
theorem reads_called {function : String} {offset : Nat} {signs : List Sign} {chains : Chains}
    {outer : List Level} (nonempty : ks ≠ [])
    (reads : Reads (expecting [] .empty (⟨some (function, []), offset, signs, chains⟩ :: outer))
      ks goal) : Reads (called function offset signs chains outer) ks goal := by
  intro tokens kinds
  obtain ⟨final, run, holds⟩ := reads tokens kinds
  refine ⟨final, ?_, holds⟩
  cases tokens with
  | nil => exact absurd kinds.symm nonempty
  | cons t rest =>
    rw [List.foldlM_cons] at run ⊢
    have noEnd : t.kind ≠ .symbol .closing := by
      intro kind
      simp [step, startOperand, kind, bind, Except.bind] at run
    simpa [step, noEnd] using run

end

/-- An operand was just read; if it is a name it may still turn out to be a call. -/
inductive Holds : State → Expr → Chains → List Level → Prop where
  | holding (operand : Expr) (chains : Chains) (outer : List Level) :
      Holds (holding operand chains outer) operand chains outer
  | named (text : String) (signs : List Sign) (chains : Chains) (outer : List Level) :
      Holds (named text signs chains outer) (applySigns signs (.name text)) chains outer

section

variable {state : State} {operand : Expr} {chains : Chains} {outer : List Level}

theorem Holds.step (holds : Holds state operand chains outer) {t : Token}
    (noCall : t.kind ≠ .symbol .opening) : state.step t = afterOperand operand chains outer t := by
  cases holds with
  | holding => rfl
  | named => simp [State.step, noCall]

theorem Holds.step_sum (holds : Holds state operand chains outer) {t : Token} {sign : Sign}
    (kind : t.kind = .symbol sign.symbol) :
    state.step t = .ok (expecting [] ⟨some (chains.close operand, sign), none, []⟩ outer) := by
  cases sign <;> rw [holds.step (by simp [kind, Sign.symbol])] <;>
    simp [afterOperand, kind, Sign.symbol]

theorem Holds.step_product (holds : Holds state operand chains outer) {t : Token}
    {scaling : Scaling} (kind : t.kind = .symbol scaling.symbol) :
    state.step t = .ok
      (expecting [] ⟨chains.sum, some (chains.closeProduct operand, scaling), []⟩ outer) := by
  cases scaling <;> rw [holds.step (by simp [kind, Scaling.symbol])] <;>
    simp [afterOperand, kind, Scaling.symbol]

theorem Holds.step_power (holds : Holds state operand chains outer) {t : Token}
    (kind : t.kind = .symbol .caret) :
    state.step t = .ok (expecting [] { chains with powers := operand :: chains.powers } outer) := by
  rw [holds.step (by simp [kind])]
  simp [afterOperand, kind]

theorem Holds.step_closing {level : Level} (holds : Holds state operand chains (level :: outer))
    {t : Token} (kind : t.kind = .symbol .closing) :
    state.step t = .ok (.holding (level.close (chains.close operand)) level.chains outer) := by
  rw [holds.step (by simp [kind])]
  simp [afterOperand, kind]

theorem Holds.step_comma {level : Level} (holds : Holds state operand chains (level :: outer))
    {t : Token} (kind : t.kind = .symbol .comma) {function : String} {finished : List Expr}
    (callee : level.callee = some (function, finished)) :
    state.step t = .ok (expecting [] .empty
      ({ level with callee := some (function, chains.close operand :: finished) } :: outer)) := by
  rw [holds.step (by simp [kind])]
  simp [afterOperand, kind, callee]

theorem Holds.finish (holds : Holds state operand chains outer) (length : Nat) :
    state.finish length = (State.holding operand chains outer).finish length := by
  cases holds <;> rfl

end

/-- What the tokens of a derivation lead to, from each state where the category may start.
A chain that is still open gives the tree when it is closed. -/
def Completes : Category → List TokenKind → Expr → Prop
  | .primary, ks, e | .unary, ks, e => ∀ signs chains outer,
      Reads (expecting signs chains outer) ks (Holds · (applySigns signs e) chains outer)
  | .power, ks, e => ∀ chains outer, Reads (expecting [] chains outer) ks fun s =>
      ∃ operand open', Holds s operand open' outer ∧ open'.sum = chains.sum ∧
        open'.product = chains.product ∧ open'.closePowers operand = chains.closePowers e
  | .multiplicative, ks, e => ∀ sum outer, Reads (expecting [] ⟨sum, none, []⟩ outer) ks fun s =>
      ∃ operand open', Holds s operand open' outer ∧ open'.sum = sum ∧
        open'.closeProduct operand = e
  | .additive, ks, e => ∀ outer, Reads (expecting [] .empty outer) ks fun s =>
      ∃ operand open', Holds s operand open' outer ∧ open'.close operand = e

/-- The arguments of a call, with commas between them, up to its closing parenthesis. -/
theorem arguments_complete {function : String} {offset : Nat} {signs : List Sign} {chains : Chains}
    {outer : List Level} (first : List TokenKind × Expr) (rest : List (List TokenKind × Expr))
    (each : ∀ a ∈ first :: rest, Completes .additive a.1 a.2) (finished : List Expr) :
    Reads (expecting [] .empty (⟨some (function, finished), offset, signs, chains⟩ :: outer))
      ([.symbol .comma].intercalate ((first :: rest).map (·.1)) ++ [.symbol .closing])
      (Holds · (applySigns signs
        (.call function (finished.reverse ++ (first :: rest).map (·.2)))) chains outer) := by
  induction rest generalizing first finished with
  | nil =>
    simp only [List.map_cons, List.map_nil, List.intercalate_singleton]
    refine (each first (by simp) _).append ?_
    rintro s ⟨operand, open', holds, closed⟩
    refine reads_cons fun t kind => ⟨_, holds.step_closing kind, reads_nil ?_⟩
    simpa [Level.close, closed] using Holds.holding _ chains outer
  | cons second rest ih =>
    simp only [List.map_cons, List.intercalate_cons_cons, List.append_assoc]
    refine (each first (by simp) _).append ?_
    rintro s ⟨operand, open', holds, closed⟩
    refine reads_cons fun t kind => ⟨_, holds.step_comma kind rfl, ?_⟩
    have later := ih second (fun a member => each a (List.mem_cons_of_mem _ member))
      (first.2 :: finished)
    simpa [closed] using later

theorem derives_complete {category : Category} {ks : List TokenKind} {e : Expr}
    (derived : Derives category ks e) : Completes category ks e := by
  induction derived with
  | number value =>
    intro signs chains outer
    exact reads_cons fun t kind =>
      ⟨_, by rw [step, startOperand, kind], reads_nil (.holding _ _ _)⟩
  | name text =>
    intro signs chains outer
    exact reads_cons fun t kind =>
      ⟨_, by rw [step, startOperand, kind], reads_nil (.named _ _ _ _)⟩
  | call function arguments each ih =>
    intro signs chains outer
    refine reads_cons fun t kind => ⟨_, by rw [step, startOperand, kind], ?_⟩
    refine reads_cons fun t kind => ⟨_, by rw [step, if_pos kind], ?_⟩
    cases arguments with
    | nil =>
      refine reads_cons fun t kind => ⟨_, by rw [step, if_pos kind], ?_⟩
      exact reads_nil (.holding _ _ _)
    | cons first rest => exact reads_called (by simp) (arguments_complete first rest ih [])
  | parentheses inner ih =>
    intro signs chains outer
    refine reads_cons fun t kind => ⟨_, by rw [step, startOperand, kind], ?_⟩
    refine (ih _).append ?_
    rintro s ⟨operand, open', holds, closed⟩
    refine reads_cons fun t kind => ⟨_, holds.step_closing kind, reads_nil ?_⟩
    simpa [Level.close, closed] using Holds.holding _ chains outer
  | operand primary ih => exact ih
  | signed sign operand ih =>
    intro signs chains outer
    refine reads_cons fun t kind => ⟨expecting (sign :: signs) chains outer, ?_, ?_⟩
    · cases sign <;> rw [step, startOperand, kind] <;> rfl
    · simpa [applySigns] using ih (sign :: signs) chains outer
  | base unary ih =>
    -- The operand is held, and the chains around it are still open.
    intro chains outer tokens kinds
    obtain ⟨final, run, holds⟩ := ih [] chains outer tokens kinds
    exact ⟨final, run, _, chains, holds, rfl, rfl, rfl⟩
  | @raised ls rs a b base exponent ihBase ihExponent =>
    -- The base waits among the powers, and is raised when the exponent closes them.
    intro chains outer
    refine (ihBase [] chains outer).append fun s holds => ?_
    refine reads_cons fun t kind => ⟨_, holds.step_power kind, ?_⟩
    exact ihExponent { chains with powers := a :: chains.powers } outer
  | factor power ih =>
    intro sum outer tokens kinds
    obtain ⟨final, run, operand, open', holds, sameSum, sameProduct, closed⟩ :=
      ih ⟨sum, none, []⟩ outer tokens kinds
    refine ⟨final, run, operand, open', holds, sameSum, ?_⟩
    rw [Chains.closeProduct, sameProduct]
    exact closed
  | @product scaling ls rs a b left right ihLeft ihRight =>
    intro sum outer
    refine (ihLeft sum outer).append ?_
    -- The next mark closes the product read so far and keeps it as its left operand.
    rintro s ⟨operand, open', holds, rfl, rfl⟩
    refine reads_cons fun t kind => ⟨_, holds.step_product kind, ?_⟩
    intro tokens kinds
    obtain ⟨final, run, last, open'', holds, sameSum, sameProduct, closed⟩ :=
      ihRight _ outer tokens kinds
    refine ⟨final, run, last, open'', holds, sameSum, ?_⟩
    rw [Chains.closeProduct, sameProduct, closed]
    rfl
  | term product ih =>
    intro outer tokens kinds
    obtain ⟨final, run, operand, open', holds, sameSum, closed⟩ := ih none outer tokens kinds
    refine ⟨final, run, operand, open', holds, ?_⟩
    rw [Chains.close, sameSum]
    exact closed
  | @sum sign ls rs a b left right ihLeft ihRight =>
    intro outer
    refine (ihLeft outer).append ?_
    rintro s ⟨operand, open', holds, rfl⟩
    refine reads_cons fun t kind => ⟨_, holds.step_sum kind, ?_⟩
    intro tokens kinds
    obtain ⟨final, run, last, open'', holds, sameSum, closed⟩ := ihRight _ outer tokens kinds
    refine ⟨final, run, last, open'', holds, ?_⟩
    rw [Chains.close, sameSum, closed]

end State

/-! ## The parser and the grammar -/

theorem parseTokens_sound {tokens : List Token} {length : Nat} {e : Expr}
    (parsed : parseTokens tokens length = .ok e) :
    Derives .additive (tokens.map (·.kind)) e := by
  unfold parseTokens at parsed
  cases run : tokens.foldlM State.step .start with
  | error err => rw [run] at parsed; cases parsed
  | ok final =>
    rw [run] at parsed
    exact State.finish_derives (State.run_spelled State.start_spelled run) parsed

theorem parseTokens_complete {tokens : List Token} {e : Expr}
    (derived : Derives .additive (tokens.map (·.kind)) e) (length : Nat) :
    parseTokens tokens length = .ok e := by
  obtain ⟨final, run, operand, chains, holds, closed⟩ :=
    State.derives_complete derived [] tokens rfl
  have run : tokens.foldlM State.step .start = .ok final := run
  unfold parseTokens
  rw [run]
  change final.finish length = .ok e
  rw [holds.finish, ← closed]
  rfl

theorem parseTokens_eq_ok {tokens : List Token} {length : Nat} {e : Expr} :
    parseTokens tokens length = .ok e ↔ Derives .additive (tokens.map (·.kind)) e :=
  ⟨parseTokens_sound, fun derived => parseTokens_complete derived length⟩

/-- The grammar is unambiguous. -/
theorem Derives.unique {ks : List TokenKind} {e f : Expr} (first : Derives .additive ks e)
    (second : Derives .additive ks f) : e = f := by
  -- The parser reads nothing but the kinds, so any tokens of these kinds decide.
  have kinds : (ks.map fun k => (⟨k, 0, ""⟩ : Token)).map (·.kind) = ks := by
    simp [Function.comp_def]
  rw [← kinds] at first second
  have same := (parseTokens_complete first 0).symm.trans (parseTokens_complete second 0)
  exact Except.ok.inj same

theorem parse_eq_ok {source : String} {e : Expr} :
    parse source = .ok e ↔
      ∃ tokens, Token.all source = .ok tokens ∧ Derives .additive (tokens.map (·.kind)) e := by
  unfold parse
  cases scanned : Token.all source with
  | error err => simp [bind, Except.bind]
  | ok tokens => simp [bind, Except.bind, parseTokens_eq_ok]

theorem parse_of_scans {source : String} {kinds : List TokenKind} {e : Expr}
    (scans : Token.Scans source.toList kinds) (derived : Derives .additive kinds e) :
    parse source = .ok e := by
  obtain ⟨tokens, scanned, same⟩ := scans 0
  exact parse_eq_ok.mpr ⟨tokens, scanned, same ▸ derived⟩

/-- The parser accepts exactly what the grammar derives from all tokens of the text, a token
list has at most one tree, and a text without a tree is refused. -/
theorem parse_accepts_grammar :
    (∀ (source : String) (e : Expr), parse source = .ok e ↔
      ∃ tokens, Token.all source = .ok tokens ∧ Derives .additive (tokens.map (·.kind)) e) ∧
    (∀ (ks : List TokenKind) (e f : Expr),
      Derives .additive ks e → Derives .additive ks f → e = f) ∧
    (∀ source : String, (∃ e tokens, parse source = .ok e ∧ Token.all source = .ok tokens ∧
        Derives .additive (tokens.map (·.kind)) e) ∨
      ∃ error, parse source = .error error ∧ ¬ ∃ tokens e, Token.all source = .ok tokens ∧
        Derives .additive (tokens.map (·.kind)) e) := by
  refine ⟨fun _ _ => parse_eq_ok, fun _ _ _ => Derives.unique, fun source => ?_⟩
  cases parsed : parse source with
  | ok e =>
    obtain ⟨tokens, scanned, derived⟩ := parse_eq_ok.mp parsed
    exact .inl ⟨e, tokens, rfl, scanned, derived⟩
  | error error =>
    refine .inr ⟨error, rfl, ?_⟩
    rintro ⟨tokens, e, scanned, derived⟩
    rw [parse_eq_ok.mpr ⟨tokens, scanned, derived⟩] at parsed
    cases parsed

theorem parse_accepts_grammar_signed_power :
    parse "-a^b" = .ok (.binary .pow (.signed .minus (.name "a")) (.name "b")) ∧
    ∀ e, Derives .additive [.symbol .minus, .name "a", .symbol .caret, .name "b"] e →
      e = .binary .pow (.signed .minus (.name "a")) (.name "b") := by
  have base : Derives .unary [.symbol .minus, .name "a"] (.signed .minus (.name "a")) :=
    .signed .minus (.operand (.name "a"))
  have derived := Derives.term (.factor (.raised base (.base (.operand (.name "b")))))
  have scanned : Token.all "-a^b" = .ok [⟨.symbol .minus, 0, "-"⟩, ⟨.name "a", 1, "a"⟩,
      ⟨.symbol .caret, 2, "^"⟩, ⟨.name "b", 3, "b"⟩] := by
    cbv
  exact ⟨(parse_accepts_grammar.1 _ _).mpr ⟨_, scanned, derived⟩,
    fun e other => parse_accepts_grammar.2.1 _ _ _ other derived⟩

end Parametric.Formula
