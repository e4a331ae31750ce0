import Parametric.Proofs.Dimension
import Parametric.Proofs.Formula.Literal
/-! A dimension keeps its number when the text that it shows is entered again.

The text may stand for a parameter, a formula or a number, and it is entered as whichever of them it
looks like. As a formula it means one number all the same, and both the dimension that shows it and
the one that is entered stand for that number. Only a parameter that shares its identifier is not
found again. A formula that fails has no number of its own, so it leaves the one of the dimension
that it is entered over.
-/

set_option autoImplicit false

namespace Parametric

namespace Dimension

open Parameters

variable {d entered : Dimension} {params : Parameters} {p q : Parameter} {text : String}

/-! ## What the text of a dimension means -/

theorem resolve_of_source (source : d.source? params = some p) : d.resolve params = p.value := by
  rw [resolve, source]

theorem sourceText_of_source (source : d.source? params = some p) :
    d.sourceText params = p.name := by
  rw [sourceText, source]

theorem resolve_withFormula {value : Float}
    (evaluated : Formula.evaluate text params.lookup = .ok value) :
    (d.withFormula text).resolve params = value := by
  rw [withFormula, resolve_formula, evaluated]

theorem resolve_trim {e : Expr} (parsed : Formula.parse (Text.trim text) = .ok e) :
    (d.withFormula (Text.trim text)).resolve params = (d.withFormula text).resolve params := by
  rw [withFormula, withFormula, resolve_formula, resolve_formula,
    Formula.evaluate_of_trim parsed params.lookup]

/-- A name is the formula of the value of its parameter. -/
theorem evaluate_name (names : DistinctNames params.list) (member : p ∈ params.list)
    (valid : Token.isName p.name = true) (finite : p.value.isFinite = true) :
    Formula.evaluate p.name params.lookup = .ok p.value := by
  have found : params.lookup p.name = some p.value := by
    rw [lookup_eq names, named?_of_mem names member]
    rfl
  rw [Formula.evaluate, Formula.parse_name valid]
  dsimp only
  rw [Formula.evalExpr, found]
  exact if_pos finite

/-- Nothing drives the dimension but its formula, and the formula fails. -/
def Fails (d : Dimension) (params : Parameters) : Prop :=
  d.source? params = none ∧
    ∃ formula ∈ d.expression, ∃ e, Formula.evaluate formula params.lookup = .error e

instance : Decidable (d.Fails params) :=
  decidable_of_iff (d.source? params = none ∧
      d.expression.any (fun formula => !(Formula.evaluate formula params.lookup).isOk) = true) <| by
    unfold Fails
    cases d.expression with
    | none => simp
    | some formula => cases evaluated : Formula.evaluate formula params.lookup <;>
        simp [evaluated, Except.isOk, Except.toBool]

theorem resolve_of_fails (fails : d.Fails params) : d.resolve params = d.value := by
  obtain ⟨source, formula, given, e, failed⟩ := fails
  rw [resolve, source, Option.mem_def.mp given]
  dsimp only
  rw [failed]

theorem evaluate_sourceText_of_fails (fails : d.Fails params) :
    ∃ e, Formula.evaluate (d.sourceText params) params.lookup = .error e := by
  obtain ⟨source, formula, given, e, failed⟩ := fails
  refine ⟨e, ?_⟩
  rw [sourceText, source, Option.mem_def.mp given]
  exact failed

theorem evaluate_sourceText (names : DistinctNames params.list)
    (valid : ∀ p ∈ params.list, Token.isName p.name = true)
    (finite : ∀ p ∈ params.list, p.value.isFinite = true) (stored : d.value.isFinite = true)
    (holds : ¬ d.Fails params) :
    Formula.evaluate (d.sourceText params) params.lookup = .ok (d.resolve params) := by
  cases source : d.source? params with
  | some p =>
    obtain ⟨member, -⟩ := get?_of_source source
    rw [resolve_of_source source, sourceText_of_source source]
    exact evaluate_name names member (valid p member) (finite p member)
  | none =>
    unfold sourceText resolve
    rw [source]
    cases expression : d.expression with
    | some formula =>
      dsimp only
      cases evaluated : Formula.evaluate formula params.lookup with
      | ok value => rfl
      | error e => exact absurd ⟨source, formula, expression, e, evaluated⟩ holds
    | none =>
      have read := readNumber_write NumberForm.plain (fun _ => rfl) stored
      exact Formula.evaluate_of_readNumber read stored params.lookup

theorem resolve_sourceText (names : DistinctNames params.list)
    (valid : ∀ p ∈ params.list, Token.isName p.name = true)
    (finite : ∀ p ∈ params.list, p.value.isFinite = true) (stored : d.value.isFinite = true) :
    (d.withFormula (d.sourceText params)).resolve params = d.resolve params := by
  by_cases fails : d.Fails params
  · obtain ⟨e, failed⟩ := evaluate_sourceText_of_fails fails
    rw [resolve_of_fails fails, withFormula, resolve_formula, failed]
  · exact resolve_withFormula (evaluate_sourceText names valid finite stored fails)

/-! ## Entering it again -/

/-- The text is the name of a parameter, and the first parameter with its identifier is another
one. -/
structure Misdirected (text : String) (params : Parameters) (p q : Parameter) : Prop where
  member : p ∈ params.list
  called : p.name = Text.trim text
  found : params.get? p.id = some q
  apart : q ≠ p

theorem resolve_withName (names : DistinctNames params.list) (member : p ∈ params.list)
    (valid : Token.isName p.name = true) (finite : p.value.isFinite = true)
    (called : p.name = Text.trim text) : (d.withFormula text).resolve params = p.value := by
  have parsed := Formula.parse_name valid
  have evaluated := evaluate_name names member valid finite
  rw [called] at parsed evaluated
  rw [← resolve_trim parsed, resolve_withFormula evaluated]

theorem enter_name (names : DistinctNames params.list) (member : p ∈ params.list)
    (valid : Token.isName p.name = true) (called : p.name = Text.trim text) :
    d.enter text params = .ok ⟨p.value, none, some p.id⟩ := by
  rw [enter, ← called, Formula.readNumber_name valid, named?_of_mem names member]

theorem resolve_enter_of_misdirected (names : DistinctNames params.list)
    (valid : ∀ p ∈ params.list, Token.isName p.name = true)
    (wrong : Misdirected text params p q) (accepted : d.enter text params = .ok entered) :
    entered.resolve params = q.value := by
  rw [enter_name names wrong.member (valid p wrong.member) wrong.called] at accepted
  cases accepted
  exact resolve_of_source wrong.found

theorem resolve_enter (names : DistinctNames params.list)
    (valid : ∀ p ∈ params.list, Token.isName p.name = true)
    (finite : ∀ p ∈ params.list, p.value.isFinite = true)
    (accepted : d.enter text params = .ok entered)
    (directed : ∀ p q, ¬ Misdirected text params p q) :
    entered.resolve params = (d.withFormula text).resolve params := by
  cases enters accepted with
  | @number value read finite =>
    obtain ⟨e, parsed, -⟩ := Formula.parse_of_readNumber read finite
    have evaluated := Formula.evaluate_of_readNumber read finite params.lookup
    rw [← resolve_trim parsed, resolve_withFormula evaluated]
    rfl
  | @name p noNumber member called =>
    obtain ⟨q, found⟩ := exists_get? member
    have itself : q = p := by
      by_contra apart
      exact directed p q ⟨member, called, found, apart⟩
    rw [resolve_withName names member (valid p member) (finite p member) called, ← itself]
    exact resolve_of_source (itself ▸ found)
  | @formula e parsed =>
    rw [resolve_formula, ← resolve_trim parsed, withFormula, resolve_formula]
    cases Formula.evaluate (Text.trim text) params.lookup with
    | ok value => rfl
    | error failure => rfl

theorem value_of_enter (ids : DistinctIds params.list)
    (accepted : d.enter text params = .ok entered) : entered.value = entered.resolve params := by
  cases enters accepted with
  | number => rfl
  | @name p noNumber member called =>
    have found : (⟨p.value, none, some p.id⟩ : Dimension).source? params = some p :=
      get?_of_mem ids member
    exact (resolve_of_source found).symm
  | formula =>
    rw [withFormula, resolve_formula, resolve_formula]
    cases Formula.evaluate (Text.trim text) params.lookup with
    | ok value => rfl
    | error e => rfl

/-- The text of a dimension is entered over another one. The number stays if something gives it, and
is the one that the other dimension stores if the formula fails. -/
theorem resolve_enter_over (names : DistinctNames params.list) (ids : DistinctIds params.list)
    (valid : ∀ p ∈ params.list, Token.isName p.name = true)
    (finite : ∀ p ∈ params.list, p.value.isFinite = true) (stored : d.value.isFinite = true)
    {base : Dimension} (accepted : base.enter (d.sourceText params) params = .ok entered) :
    (¬ d.Fails params → entered.resolve params = d.resolve params) ∧
      (d.Fails params → entered.resolve params = base.value) := by
  have means : entered.resolve params =
      (base.withFormula (d.sourceText params)).resolve params := by
    refine resolve_enter names valid finite accepted fun p q wrong => wrong.apart ?_
    exact Option.some.inj (wrong.found.symm.trans (get?_of_mem ids wrong.member))
  rw [means]
  constructor
  · intro holds
    exact resolve_withFormula (evaluate_sourceText names valid finite stored holds)
  · intro fails
    obtain ⟨e, failed⟩ := evaluate_sourceText_of_fails fails
    rw [withFormula, resolve_formula, failed]

/-- Nothing drives the dimension but a formula that is the name of `p`, and the first parameter with
the identifier of `p` is another one. -/
structure Misnamed (d : Dimension) (params : Parameters) (p q : Parameter) : Prop where
  member : p ∈ params.list
  found : params.get? p.id = some q
  apart : q ≠ p
  source : d.source? params = none
  called : d.expression.map Text.trim = some p.name

theorem misdirected_sourceText_iff (names : DistinctNames params.list)
    (valid : ∀ p ∈ params.list, Token.isName p.name = true) (stored : d.value.isFinite = true) :
    Misdirected (d.sourceText params) params p q ↔ d.Misnamed params p q := by
  constructor
  · rintro ⟨member, called, found, apart⟩
    have unsourced : d.source? params = none := by
      rw [Option.eq_none_iff_forall_ne_some]
      intro r source
      obtain ⟨listed, own⟩ := get?_of_source source
      rw [sourceText_of_source source, Formula.trim_name (valid r listed)] at called
      obtain rfl := names.eq member listed called
      exact apart (Option.some.inj (found.symm.trans own))
    refine ⟨member, found, apart, unsourced, ?_⟩
    rw [sourceText, unsourced] at called
    cases expression : d.expression with
    | some formula =>
      rw [expression] at called
      exact congrArg some called.symm
    | none =>
      rw [expression] at called
      have read := readNumber_write NumberForm.plain (fun _ => rfl) stored
      have unread := Formula.readNumber_name (valid p member)
      rw [called, Formula.trim_of_readNumber read stored, read, Option.filter_some, if_pos stored]
        at unread
      cases unread
  · rintro ⟨member, found, apart, source, called⟩
    obtain ⟨formula, given, trimmed⟩ := Option.map_eq_some_iff.mp called
    refine ⟨member, ?_, found, apart⟩
    rw [sourceText, source, given]
    exact trimmed.symm

/-- Entering the text that a dimension shows keeps its number, bit for bit, whatever drives it: a
parameter, a formula, also one that fails or has become a name since, or its own number. The one
exception is a formula that is the name of a parameter whose identifier an earlier one has, too.
Then the dimension stands for the value of the one and the entered one for that of the other. -/
theorem enter_sourceText (names : DistinctNames params.list)
    (valid : ∀ p ∈ params.list, Token.isName p.name = true)
    (finite : ∀ p ∈ params.list, p.value.isFinite = true) (stored : d.value.isFinite = true)
    (accepted : d.enter (d.sourceText params) params = .ok entered) :
    ((∀ p q, ¬ d.Misnamed params p q) → entered.resolve params = d.resolve params) ∧
      ∀ p q, d.Misnamed params p q →
        d.resolve params = p.value ∧ entered.resolve params = q.value := by
  have means := resolve_sourceText names valid finite stored
  have misdirected (p q : Parameter) :=
    misdirected_sourceText_iff (p := p) (q := q) names valid stored
  constructor
  · intro named
    refine (resolve_enter names valid finite accepted fun p q wrong => ?_).trans means
    exact named p q ((misdirected p q).mp wrong)
  · intro p q misnamed
    have wrong := (misdirected p q).mpr misnamed
    have meant : (d.withFormula (d.sourceText params)).resolve params = p.value :=
      resolve_withName names wrong.member (valid p wrong.member) (finite p wrong.member)
        wrong.called
    exact ⟨means.symm.trans meant, resolve_enter_of_misdirected names valid wrong accepted⟩

def limits : Parameters :=
  ⟨[⟨⟨1⟩, "inf", "2.5", 2.5, none⟩, ⟨⟨2⟩, "none", "0", 0.0, none⟩], .empty⟩

theorem enter_sourceText_failing :
    let d : Dimension := ⟨7.0, some "\t-.5e1 * inf / none ", some ⟨9⟩⟩
    ∃ entered, d.enter (d.sourceText limits) limits = .ok entered ∧
      entered = ⟨7.0, some "-.5e1 * inf / none", none⟩ ∧
      entered.resolve limits = d.resolve limits := by
  intro d
  have accepted : d.enter (d.sourceText limits) limits =
      .ok ⟨7.0, some "-.5e1 * inf / none", none⟩ := by decide +kernel
  refine ⟨_, accepted, rfl, ?_⟩
  have unnamed : ∀ p ∈ limits.list, d.expression.map Text.trim ≠ some p.name := by decide +kernel
  refine (enter_sourceText (by decide +kernel) (by decide +kernel) (by decide +kernel)
    (by decide +kernel) accepted).1 fun p q misnamed => ?_
  exact unnamed p misnamed.member misnamed.called

def shared : Parameters :=
  ⟨[⟨⟨1⟩, "a", "1", 1.0, none⟩, ⟨⟨1⟩, "b", "2", 2.0, none⟩], .empty⟩

theorem enter_sourceText_shared :
    let d : Dimension := ⟨0.0, some "b", none⟩
    Parameters.DistinctNames shared.list ∧
    (∀ p ∈ shared.list, Token.isName p.name = true) ∧
    (∀ p ∈ shared.list, p.value.isFinite = true) ∧ d.value.isFinite = true ∧
    ∃ entered, d.enter (d.sourceText shared) shared = .ok entered ∧
      d.resolve shared = 2.0 ∧ entered.resolve shared = 1.0 ∧
      entered.resolve shared ≠ d.resolve shared := by
  refine ⟨by decide +kernel, by decide +kernel, by decide +kernel, by decide +kernel,
    ⟨2.0, none, some ⟨1⟩⟩, ?_⟩
  exact ⟨by decide +kernel, by decide +kernel, by decide +kernel, by decide +kernel⟩

end Dimension

end Parametric
