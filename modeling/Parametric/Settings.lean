import Parametric.Ron.Schema
/-! Settings of the program. -/

set_option autoImplicit false

namespace Parametric

structure Settings where
  historyLimit : Option Nat
  defaultUnit : Option String
  defaultPlane : DatumPlane
  logFilter : String
  deriving DecidableEq, Repr

namespace Settings

def standard : Settings :=
  ⟨none, none, .xy, "pcad=info"⟩

instance : Inhabited Settings := ⟨standard⟩

def toRon (s : Settings) : Ron.Value :=
  .record none [("history_limit", .option .natural s.historyLimit),
    ("default_unit", .option .string s.defaultUnit),
    ("default_plane", .choice s.defaultPlane.axes), ("log_filter", .string s.logFilter)]

/-- A setting that is not given has its standard value. -/
def schema : Ron.Schema Settings :=
  .record "EngineConfig" <| Settings.mk
    <$> .defaulted "history_limit" (.option (.natural 64)) standard.historyLimit
    <*> .defaulted "default_unit" (.option .string) standard.defaultUnit
    <*> .defaulted "default_plane" (.choice DatumPlane.all DatumPlane.axes) standard.defaultPlane
    <*> .defaulted "log_filter" .string standard.logFilter

def text (s : Settings) : String :=
  s.toRon.write .spread

/-- The settings that a text stores; what the reader says of a malformed one is left out. -/
def ofText? (text : String) : Option Settings :=
  schema.read? text

end Settings

end Parametric
