import Parametric.Proofs.Ron.Skipping
/-! Forms whose values are passed over up to where they are read.

A name must be no word that stands for a value by itself, what is optional is a number or a text,
and a tuple begins with one. All stored forms are such.
-/

set_option autoImplicit false

namespace Parametric.Ron

open Reader (reserved)

inductive Form.Scalar : Form → Prop where
  | float : Scalar .float
  | natural (width : Nat) : Scalar (.natural width)
  | string : Scalar .string

/-- A form whose values end where they are passed over. -/
inductive Form.Regular : Form → Prop where
  | scalar {form : Form} (scalar : form.Scalar) : Regular form
  | bool : Regular .bool
  | choice : Regular .choice
  | option {form : Form} (scalar : form.Scalar) : Regular (.option form)
  | list {form : Form} (inside : Regular form) : Regular (.list form)
  | tuple {kind : Option String} {first : Form} {items : List Form}
      (unreserved : ∀ name ∈ kind, name ∉ reserved) (scalar : first.Scalar)
      (inside : ∀ form ∈ first :: items, Regular form) : Regular (.tuple kind (first :: items))
  | record {kind : String} {fields : List (String × Form)} (unreserved : kind ∉ reserved)
      (inside : ∀ field ∈ fields, Regular field.2) : Regular (.record kind fields)
  | variants {kinds : List (String × List (String × Form))}
      (unreserved : ∀ kind ∈ kinds, kind.1 ∉ reserved)
      (inside : ∀ kind ∈ kinds, ∀ field ∈ kind.2, Regular field.2) : Regular (.variants kinds)

namespace Form

/-! ## A test of forms -/

def isScalar : Form → Bool
  | .float | .natural _ | .string => true
  | _ => false

mutual

def isRegular : Form → Bool
  | .float | .natural _ | .string | .bool | .choice => true
  | .option form => form.isScalar
  | .list form => form.isRegular
  | .tuple kind items =>
    kind.all (· ∉ reserved) && items.head?.any isScalar && areRegular items
  | .record kind fields => decide (kind ∉ reserved) && fieldsRegular fields
  | .variants kinds => kindsRegular kinds

def areRegular : List Form → Bool
  | [] => true
  | form :: forms => form.isRegular && areRegular forms

def fieldsRegular : List (String × Form) → Bool
  | [] => true
  | (_, form) :: fields => form.isRegular && fieldsRegular fields

def kindsRegular : List (String × List (String × Form)) → Bool
  | [] => true
  | (kind, fields) :: kinds =>
    decide (kind ∉ reserved) && fieldsRegular fields && kindsRegular kinds

end

theorem scalar_of_isScalar {form : Form} (holds : form.isScalar = true) : form.Scalar := by
  cases form with
  | float => exact .float
  | natural width => exact .natural width
  | string => exact .string
  | bool | choice | option | list | tuple | record | variants => cases holds

mutual

theorem regular_of_isRegular : (form : Form) → form.isRegular = true → form.Regular
  | .float, _ => .scalar .float
  | .natural width, _ => .scalar (.natural width)
  | .string, _ => .scalar .string
  | .bool, _ => .bool
  | .choice, _ => .choice
  | .option _, holds => .option (scalar_of_isScalar holds)
  | .list form, holds => .list (regular_of_isRegular form holds)
  | .tuple _ [], holds => by simp [isRegular] at holds
  | .tuple kind (first :: items), holds => by
    simp only [isRegular, Bool.and_eq_true] at holds
    obtain ⟨⟨unreserved, starts⟩, inside⟩ := holds
    refine .tuple ?_ (scalar_of_isScalar starts) (regular_of_areRegular _ inside)
    rintro name rfl
    exact of_decide_eq_true unreserved
  | .record kind fields, holds =>
    have holds := Bool.and_eq_true_iff.mp holds
    .record (of_decide_eq_true holds.1) (regular_of_fieldsRegular fields holds.2)
  | .variants kinds, holds =>
    have each := regular_of_kindsRegular kinds holds
    .variants (fun kind member => (each kind member).1) fun kind member => (each kind member).2

theorem regular_of_areRegular : (forms : List Form) → areRegular forms = true →
    ∀ form ∈ forms, form.Regular
  | [], _ => fun _ member => nomatch member
  | first :: forms, holds =>
    have holds := Bool.and_eq_true_iff.mp holds
    List.forall_mem_cons.mpr
      ⟨regular_of_isRegular first holds.1, regular_of_areRegular forms holds.2⟩

theorem regular_of_fieldsRegular : (fields : List (String × Form)) → fieldsRegular fields = true →
    ∀ field ∈ fields, field.2.Regular
  | [], _ => fun _ member => nomatch member
  | (_, form) :: fields, holds =>
    have holds := Bool.and_eq_true_iff.mp holds
    List.forall_mem_cons.mpr
      ⟨regular_of_isRegular form holds.1, regular_of_fieldsRegular fields holds.2⟩

theorem regular_of_kindsRegular : (kinds : List (String × List (String × Form))) →
    kindsRegular kinds = true →
    ∀ kind ∈ kinds, kind.1 ∉ reserved ∧ ∀ field ∈ kind.2, field.2.Regular
  | [], _ => fun _ member => nomatch member
  | (_, fields) :: kinds, holds =>
    have holds := Bool.and_eq_true_iff.mp holds
    have first := Bool.and_eq_true_iff.mp holds.1
    List.forall_mem_cons.mpr
      ⟨⟨of_decide_eq_true first.1, regular_of_fieldsRegular fields first.2⟩,
        regular_of_kindsRegular kinds holds.2⟩

end

end Form

end Parametric.Ron
