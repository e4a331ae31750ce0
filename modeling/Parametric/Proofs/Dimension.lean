import Parametric.Dimension
import Parametric.Proofs.Parameters.Addition
import Parametric.Proofs.Parameters.Run
/-! What dimensions stand for.

A dimension stands for a finite number if its own number and the values of the parameters are
finite, since formulas give no others. A formula gives a dimension the number that it gives a new
parameter.
-/

set_option autoImplicit false

namespace Parametric

namespace Dimension

variable {d entered : Dimension} {params : Parameters}

/-! ## Finite numbers -/

theorem default_isFinite : (default : Dimension).value.isFinite = true := by
  decide +kernel

theorem get?_of_source {p : Parameter} (source : d.source? params = some p) :
    p ∈ params.list ∧ params.get? p.id = some p := by
  obtain ⟨id, -, found⟩ := Option.bind_eq_some_iff.mp source
  obtain ⟨member, rfl⟩ := Parameters.of_get? found
  exact ⟨member, found⟩

theorem resolve_isFinite (stored : d.value.isFinite = true)
    (finite : ∀ p ∈ params.list, p.value.isFinite = true) :
    (d.resolve params).isFinite = true := by
  unfold resolve
  split
  · next p source => exact finite p (get?_of_source source).1
  · exact stored
  · split
    · next evaluated => exact Formula.isFinite_of_evaluate evaluated
    · exact stored

def withFormula (d : Dimension) (text : String) : Dimension :=
  ⟨d.value, some text, none⟩

/-- What a trimmed text enters. -/
inductive Enters (d : Dimension) (text : String) (params : Parameters) : Dimension → Prop where
  | number {value : Float} (read : readNumber text = some value)
      (finite : value.isFinite = true) : Enters d text params (literal value)
  | name {p : Parameter} (noNumber : (readNumber text).filter Float.isFinite = none)
      (member : p ∈ params.list) (called : p.name = text) :
      Enters d text params ⟨p.value, none, some p.id⟩
  | formula {e : Expr} (parsed : Formula.parse text = .ok e) :
      Enters d text params ⟨(d.withFormula text).resolve params, some text, none⟩

theorem enters {input : String} (accepted : d.enter input params = .ok entered) :
    Enters d (Text.trim input) params entered := by
  unfold enter at accepted
  dsimp only at accepted
  split at accepted
  · next literal =>
    cases accepted
    obtain ⟨read, finite⟩ := Option.filter_eq_some_iff.mp literal
    exact .number read finite
  · next noNumber named =>
    cases accepted
    have called := List.find?_some (p := fun p : Parameter => p.name = Text.trim input) named
    exact .name noNumber (List.mem_of_find?_eq_some named) (of_decide_eq_true called)
  · obtain ⟨e, parsed, accepted⟩ := ok_of_bind accepted
    cases accepted
    exact .formula parsed

theorem enter_isFinite (stored : d.value.isFinite = true)
    (finite : ∀ p ∈ params.list, p.value.isFinite = true) {input : String}
    (accepted : d.enter input params = .ok entered) : entered.value.isFinite = true := by
  cases enters accepted with
  | number _ finite => exact finite
  | name _ member => exact finite _ member
  | formula => exact resolve_isFinite stored finite

/-! ## Formulas of dimensions and of parameters -/

theorem resolve_formula (formula : String) (value : Float) :
    (⟨value, some formula, none⟩ : Dimension).resolve params =
      match Formula.evaluate formula params.lookup with
      | .ok found => found
      | .error _ => value := rfl

open Parameters in
/-- A formula means the same number in a dimension and in a new parameter that nothing mentions:
the dimension reads the values that are there, and the parameter is evaluated together with all
others. If the formula fails, both are zero. The other parameters stay as they are. -/
theorem formula_agrees {before : Parameters} (evaluated : params = before.evaluate)
    (names : DistinctNames params.list) (ids : DistinctIds params.list)
    (unfailed : params.errors = .empty)
    (fresh : ParameterId) (name formula : String) (unit : Option String)
    (parsed : (Formula.parse formula).isOk = true)
    (valid : Token.isName name = true) (free : name ∉ params.list.map (·.name))
    (unmentioned : ¬ Formula.Mentions formula name)
    (unused : ∀ p ∈ params.list, ¬ Formula.Mentions p.expression name)
    (new : fresh ∉ params.list.map (·.id)) :
    let number := (⟨0.0, some formula, none⟩ : Dimension).resolve params
    ∃ next, params.add fresh name formula unit = .ok next ∧
      next.list = params.list ++ [⟨fresh, name, formula, number, unit⟩] ∧
      (∀ id ≠ fresh, next.error? id = none) ∧
      ∀ failure, Formula.evaluate formula params.lookup = .error failure →
        number = 0.0 ∧ next.error? fresh = some (.formula failure) := by
  intro number
  let p : Parameter := ⟨fresh, name, formula, 0.0, unit⟩
  have accepted : params.add fresh name formula unit = .ok (ofList (params.list ++ [p])) :=
    add_eq fresh unit parsed valid free
  have distinct : DistinctNames (params.list ++ [p]) := by
    rw [DistinctNames, List.map_append]
    exact List.nodup_append_comm.mp (List.nodup_cons.mpr ⟨free, names⟩)
  have distinctIds : DistinctIds (params.list ++ [p]) := by
    rw [DistinctIds, List.map_append]
    exact List.nodup_append_comm.mp (List.nodup_cons.mpr ⟨new, ids⟩)
  have fixed : params.evaluate = params := by
    rw [evaluated] at names ids ⊢
    exact ofList_again (distinctNames_ofList.mp names) (distinctIds_ofList.mp ids)
  obtain ⟨list, errors⟩ := ofList_append distinct distinctIds fixed unfailed <| by
    intro q member
    rcases List.mem_append.mp member with old | last
    · exact unused q old
    · cases List.mem_singleton.mp last
      exact unmentioned
  have settled : p.settled params.lookup = ⟨fresh, name, formula, number, unit⟩ := by
    cases result : Formula.evaluate formula params.lookup with
    | ok value => simp only [number, p, resolve_formula, Parameter.settled, result]
    | error failure => simp only [number, p, resolve_formula, Parameter.settled, result]
  refine ⟨_, accepted, settled ▸ list, fun id other => (errors id).trans (if_neg other), ?_⟩
  intro failure failed
  rw [errors fresh, if_pos rfl, Parameter.failure?]
  simp only [number, p, resolve_formula, failed, and_self]

def plate : Parameters :=
  Parameters.ofList [⟨⟨1⟩, "height", "width * 2", 0.0, none⟩, ⟨⟨2⟩, "width", "10", 0.0, none⟩]

theorem formula_agrees_ratio :
    let formula := "width / (height - 20)"
    let number := (⟨0.0, some formula, none⟩ : Dimension).resolve plate
    ∃ next, plate.add ⟨3⟩ "aspect" formula none = .ok next ∧
      next.list = plate.list ++ [⟨⟨3⟩, "aspect", formula, number, none⟩] ∧
      (∀ id ≠ ⟨3⟩, next.error? id = none) ∧ number = 0.0 ∧
      next.error? ⟨3⟩ = some (.formula (.evaluation .divisionByZero)) := by
  intro formula number
  have failed : Formula.evaluate formula plate.lookup = .error (.evaluation .divisionByZero) := by
    decide +kernel
  have evaluated : plate = plate.evaluate := by decide +kernel
  obtain ⟨next, accepted, list, errors, failing⟩ := formula_agrees evaluated (by decide +kernel)
    (by decide +kernel) (by decide +kernel) ⟨3⟩ "aspect" formula none (by decide +kernel)
    (by decide +kernel) (by decide +kernel) (by decide +kernel) (by decide +kernel)
    (by decide +kernel)
  exact ⟨next, accepted, list, errors, failing _ failed⟩

end Dimension

end Parametric
