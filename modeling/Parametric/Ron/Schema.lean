import Parametric.Identifier
import Parametric.Plane
import Parametric.Ron.Reading
import Parametric.Timestamp
/-! Domain values in RON: the form that is expected of a text, and what a value of that
form stands for.

A field of a record counts by its name, wherever it stands.
-/

set_option autoImplicit false

namespace Parametric.Ron

structure Schema (α : Type) where
  form : Form
  decode : Value → Option α

structure Fields (α : Type) where
  forms : List (String × Form)
  decode : List (String × Value) → Option α

namespace Schema

variable {α β : Type}

def float : Schema Float :=
  ⟨.float, fun | .float x => some x | _ => none⟩

def natural (width : Nat) : Schema Nat :=
  ⟨.natural width, fun | .natural n => some n | _ => none⟩

def bool : Schema Bool :=
  ⟨.bool, fun | .bool b => some b | _ => none⟩

def ofText (read? : String → Option α) : Schema α :=
  ⟨.string, fun | .string text => read? text | _ => none⟩

def string : Schema String :=
  .ofText some

def id {kind : IdKind} : Schema (Id kind) :=
  .ofText Id.ofText?

def timestamp : Schema Timestamp :=
  .ofText Timestamp.ofText?

def choice (choices : List α) (name : α → String) : Schema α :=
  ⟨.choice, fun | .choice text => choices.find? (name · = text) | _ => none⟩

def option (schema : Schema α) : Schema (Option α) where
  form := .option schema.form
  decode
    | .absent => some none
    | .present value => (schema.decode value).map some
    | _ => none

def list (schema : Schema α) : Schema (List α) :=
  ⟨.list schema.form, fun | .list items => items.mapM schema.decode | _ => none⟩

def pair (first : Schema α) (second : Schema β) : Schema (α × β) where
  form := .tuple none [first.form, second.form]
  decode
    | .tuple [x, y] => do return (← first.decode x, ← second.decode y)
    | _ => none

def vec2 : Schema Vec2 where
  form := .tuple (some "DVec2") [.float, .float]
  decode
    | .tuple [.float x, .float y] => some ⟨x, y⟩
    | _ => none

def vec3 : Schema Vec3 where
  form := .tuple (some "DVec3") [.float, .float, .float]
  decode
    | .tuple [.float x, .float y, .float z] => some ⟨x, y, z⟩
    | _ => none

def record (name : String) (fields : Fields α) : Schema α where
  form := .record name fields.forms
  decode
    | .record none found => fields.decode found
    | _ => none

/-- A record whose name tells which fields it has. -/
def variants (kinds : List (String × Fields α)) : Schema α where
  form := .variants (kinds.map fun kind => (kind.1, kind.2.forms))
  decode
    | .record (some kind) found => (kinds.lookup kind).bind (·.decode found)
    | _ => none

def read? (schema : Schema α) (source : String) : Option α :=
  (Ron.read? schema.form source).bind schema.decode

end Schema

namespace Fields

variable {α : Type}

def required (name : String) (schema : Schema α) : Fields α :=
  ⟨[(name, schema.form)], fun found => (found.lookup name).bind schema.decode⟩

def defaulted (name : String) (schema : Schema α) (default : α) : Fields α where
  forms := [(name, schema.form)]
  decode found := match found.lookup name with
    | none => some default
    | some value => schema.decode value

instance : Applicative Fields where
  pure x := ⟨[], fun _ => some x⟩
  seq f x :=
    ⟨f.forms ++ (x ()).forms, fun found => do return (← f.decode found) (← (x ()).decode found)⟩

end Fields

end Parametric.Ron
