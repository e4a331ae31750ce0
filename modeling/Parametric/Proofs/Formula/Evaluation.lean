import Parametric.Formula.Evaluation
import Parametric.Proofs.SortedMap
/-! Evaluation reads only the names that a formula mentions.

A call keeps its arguments in a list, so trees get an induction rule with one
hypothesis for all arguments, and the functions on argument lists are replaced
by those on plain lists.
-/

set_option autoImplicit false

namespace Parametric

namespace Expr

@[elab_as_elim, induction_eliminator]
theorem inductionOn {motive : Expr → Prop} (number : ∀ value, motive (.number value))
    (name : ∀ text, motive (.name text))
    (signed : ∀ sign operand, motive operand → motive (.signed sign operand))
    (binary : ∀ operator left right, motive left → motive right →
      motive (.binary operator left right))
    (call : ∀ function arguments, (∀ a ∈ arguments, motive a) → motive (.call function arguments))
    (e : Expr) : motive e := by
  refine @Expr.rec motive (fun es => ∀ a ∈ es, motive a) number name signed binary call ?_ ?_ e
  · simp
  · intro first rest head tail a member
    rcases List.mem_cons.mp member with rfl | later
    · exact head
    · exact tail a later

theorem mentionsAll_eq (es : List Expr) : mentionsAll es = es.flatMap mentions := by
  induction es with
  | nil => rfl
  | cons e rest ih => rw [mentionsAll, ih, List.flatMap_cons]

theorem mem_mentions_call {function : String} {arguments : List Expr} {a : Expr} {name : String}
    (member : a ∈ arguments) (mentioned : name ∈ a.mentions) :
    name ∈ (call function arguments).mentions := by
  rw [mentions, mentionsAll_eq]
  exact List.mem_flatMap.mpr ⟨a, member, mentioned⟩

theorem mem_identifiers {e : Expr} {name : String} : name ∈ e.identifiers ↔ name ∈ e.mentions := by
  rw [identifiers, SortedMap.mem_keys, SortedMap.contains_ofList]
  simp

end Expr

namespace Formula

theorem evalAll_eq (lookup : String → Option Float) (es : List Expr) :
    evalAll lookup es = es.mapM (evalExpr lookup) := by
  induction es with
  | nil => rfl
  | cons e rest ih => rw [evalAll, ih, List.mapM_cons]

theorem mapM_congr {α β ε : Type} {first second : α → Except ε β} {xs : List α}
    (same : ∀ x ∈ xs, first x = second x) : xs.mapM first = xs.mapM second := by
  induction xs with
  | nil => rfl
  | cons x rest ih =>
    rw [List.mapM_cons, List.mapM_cons, same x (by simp),
      ih fun y later => same y (List.mem_cons_of_mem _ later)]

theorem mapM_error {α β ε : Type} {f : α → Except ε β} {xs : List α} {e : ε}
    (failed : xs.mapM f = .error e) : ∃ x ∈ xs, f x = .error e := by
  induction xs with
  | nil => cases failed
  | cons x rest ih =>
    rw [List.mapM_cons] at failed
    cases first : f x with
    | error other =>
      rw [first] at failed
      cases failed
      exact ⟨x, by simp, first⟩
    | ok y =>
      rw [first] at failed
      cases tail : rest.mapM f with
      | error other =>
        rw [tail] at failed
        cases failed
        obtain ⟨later, member, there⟩ := ih tail
        exact ⟨later, List.mem_cons_of_mem _ member, there⟩
      | ok ys => rw [tail] at failed; cases failed

/-- Look-ups that agree on the names of an expression give it the same value. -/
theorem evalExpr_congr {first second : String → Option Float} {e : Expr}
    (same : ∀ name ∈ e.mentions, first name = second name) :
    evalExpr first e = evalExpr second e := by
  induction e with
  | number value => rfl
  | name text => rw [evalExpr, evalExpr, same text (by simp [Expr.mentions])]
  | signed sign operand ih =>
    have operand := ih same
    cases sign <;> rw [evalExpr, evalExpr, operand]
  | binary operator left right ihLeft ihRight =>
    have left := ihLeft fun name member => same name (List.mem_append_left _ member)
    have right := ihRight fun name member => same name (List.mem_append_right _ member)
    rw [evalExpr, evalExpr, left, right]
  | call function arguments ih =>
    have values : evalAll first arguments = evalAll second arguments := by
      rw [evalAll_eq, evalAll_eq]
      exact mapM_congr fun a member => ih a member fun name mentioned =>
        same name (Expr.mem_mentions_call member mentioned)
    rw [evalExpr, evalExpr, values]

theorem apply_ne_unknownIdentifier (builtin : Builtin) (function name : String)
    (values : List Float) : builtin.apply function values ≠ .error (.unknownIdentifier name) := by
  unfold Builtin.apply
  split <;> simp

theorem applyOperator_ne_unknownIdentifier (operator : Operator) (x y : Float) (name : String) :
    applyOperator operator x y ≠ .error (.unknownIdentifier name) := by
  cases operator <;> simp only [applyOperator] <;> try split
  all_goals simp

theorem evalExpr_unknownIdentifier {lookup : String → Option Float} {e : Expr} {name : String}
    (failed : evalExpr lookup e = .error (.unknownIdentifier name)) :
    name ∈ e.mentions ∧ lookup name = none ∧ constant? name = none := by
  induction e with
  | number value => cases failed
  | name text =>
    rw [evalExpr] at failed
    split at failed
    · cases failed
    · next unknown =>
      cases failed
      obtain ⟨absent, noConstant⟩ : lookup name = none ∧ constant? name = none := by
        simpa using unknown
      exact ⟨by simp [Expr.mentions], absent, noConstant⟩
  | signed sign operand ih =>
    cases sign with
    | plus => exact ih failed
    | minus =>
      rw [evalExpr] at failed
      cases inner : evalExpr lookup operand with
      | error e => rw [inner] at failed; cases failed; exact ih inner
      | ok value => rw [inner] at failed; cases failed
  | binary operator left right ihLeft ihRight =>
    rw [evalExpr] at failed
    cases first : evalExpr lookup left with
    | error e =>
      rw [first] at failed
      cases failed
      obtain ⟨member, unknown⟩ := ihLeft first
      exact ⟨List.mem_append_left _ member, unknown⟩
    | ok x =>
      rw [first] at failed
      cases second : evalExpr lookup right with
      | error e =>
        rw [second] at failed
        cases failed
        obtain ⟨member, unknown⟩ := ihRight second
        exact ⟨List.mem_append_right _ member, unknown⟩
      | ok y =>
        rw [second] at failed
        exact absurd failed (applyOperator_ne_unknownIdentifier operator x y name)
  | call function arguments ih =>
    rw [evalExpr] at failed
    split at failed
    · cases failed
    · next builtin found =>
      cases values : evalAll lookup arguments with
      | error e =>
        rw [values] at failed
        cases failed
        -- The call fails as its first argument without a value does.
        rw [evalAll_eq] at values
        obtain ⟨a, member, there⟩ := mapM_error values
        obtain ⟨mentioned, unknown⟩ := ih a member there
        exact ⟨Expr.mem_mentions_call member mentioned, unknown⟩
      | ok xs =>
        -- No function fails in this way on values.
        rw [values] at failed
        exact absurd failed (apply_ne_unknownIdentifier builtin function name xs)

/-- Evaluation reads the identifiers of an expression and nothing else: look-ups that agree on them
lead to the same value or failure, and a name that is found unknown is one of them, has no value and
is no constant. -/
theorem evalExpr_reads_identifiers (e : Expr) :
    (∀ first second : String → Option Float,
      (∀ name ∈ e.identifiers, first name = second name) → evalExpr first e = evalExpr second e) ∧
    ∀ (lookup : String → Option Float) (name : String),
      evalExpr lookup e = .error (.unknownIdentifier name) →
        name ∈ e.identifiers ∧ lookup name = none ∧ constant? name = none := by
  constructor
  · intro first second agree
    exact evalExpr_congr fun name mentioned => agree name (Expr.mem_identifiers.mpr mentioned)
  · intro lookup name failed
    obtain ⟨mentioned, unknown⟩ := evalExpr_unknownIdentifier failed
    exact ⟨Expr.mem_identifiers.mpr mentioned, unknown⟩

def shadowing : Expr :=
  .call "max" [.signed .minus (.name "PI"), .binary .div (.name "w") (.name "E"),
    .call "min" [.name "h", .name "h"]]

def someValues (depth : Option Float) : String → Option Float
  | "PI" => some 3.0
  | "w" => some 7.0
  | "d" => depth
  | _ => none

theorem evalExpr_reads_identifiers_shadowing :
    shadowing.identifiers = ["E", "PI", "h", "w"] ∧
    someValues none "d" ≠ someValues (some 1.0) "d" ∧
    evalExpr (someValues none) shadowing = .error (.unknownIdentifier "h") ∧
    evalExpr (someValues (some 1.0)) shadowing = .error (.unknownIdentifier "h") ∧
    "h" ∈ shadowing.identifiers ∧ someValues none "h" = none ∧ constant? "h" = none := by
  have names : shadowing.identifiers = ["E", "PI", "h", "w"] := by decide +kernel
  have failed : evalExpr (someValues none) shadowing = .error (.unknownIdentifier "h") := by rfl
  obtain ⟨agreeing, unknown⟩ := evalExpr_reads_identifiers shadowing
  have same := agreeing (someValues none) (someValues (some 1.0)) fun name member => by
    rw [names] at member
    simp only [List.mem_cons, List.not_mem_nil, or_false] at member
    rcases member with rfl | rfl | rfl | rfl <;> rfl
  exact ⟨names, by decide +kernel, failed, same ▸ failed, unknown _ _ failed⟩

theorem evaluate_congr {source : String} {first second : String → Option Float}
    (same : ∀ e, parse source = .ok e → ∀ name ∈ e.mentions, first name = second name) :
    evaluate source first = evaluate source second := by
  unfold evaluate
  cases parsed : parse source with
  | error e => rfl
  | ok e =>
    have value := evalExpr_congr (same e parsed)
    simp only [value]

theorem evaluate_unknownIdentifier {source name : String} {lookup : String → Option Float}
    (failed : evaluate source lookup = .error (.evaluation (.unknownIdentifier name))) :
    lookup name = none := by
  unfold evaluate at failed
  split at failed
  · cases failed
  · next e parsed =>
    split at failed
    · next error raised =>
      cases failed
      exact (evalExpr_unknownIdentifier raised).2.1
    · split at failed <;> cases failed

end Formula

end Parametric
