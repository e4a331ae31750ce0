import Parametric.CommandLine.Arguments
import Parametric.Text.Lines
/-! The texts that tell how the program is used. -/

set_option autoImplicit false

namespace Parametric.CommandLine

namespace Topic

def about : Topic → String
  | new => "Create an empty document"
  | inspect => "Show the parameters and feature tree of a document"
  | eval => "Evaluate an expression"
  | plan => "Show what would be sent to a geometry kernel"

def argument : Topic → String × String
  | new => ("<FILE>", "Output file")
  | inspect | plan => ("<FILE>", "")
  | eval => ("<EXPRESSION>", "")

def options : Topic → List (String × String)
  | new => [("      --force", "Overwrite an existing file")]
  | inspect => [("      --json", "Print JSON instead of text")]
  | eval => [("      --var <VARS>", "Variable binding, repeatable")]
  | plan => []

end Topic

def columns (rows : List (String × String)) : List String :=
  let width := (rows.map (·.1.length)).foldl max 0
  rows.map fun row => row.1.pushn ' ' (width - row.1.length) ++ "  " ++ row.2

def optionLines (own : List (String × String)) : List String :=
  "Options:" :: columns ([("      --config <CONFIG>", "Engine configuration file (RON)")] ++ own ++
    [("  -h, --help", "Print help")])

def aboutHelp : String := "Print this message or the help of the given subcommand(s)"

def helpText (subject : Subject) : String :=
  Text.ofLines <| match subject with
  | .program =>
    let commands := Topic.all.map fun topic => ("  " ++ topic.name, topic.about)
    ["Parametric CAD document tool", "", "Usage: pcad [OPTIONS] <COMMAND>", "", "Commands:"] ++
      columns (commands ++ [("  help", aboutHelp)]) ++ "" :: optionLines []
  | .command topic =>
    let (word, meaning) := topic.argument
    [topic.about, "", "Usage: pcad " ++ topic.name ++ " [OPTIONS] " ++ word, "", "Arguments:"] ++
      columns [("  " ++ word, meaning)] ++ "" :: optionLines topic.options
  | .help =>
    [aboutHelp, "", "Usage: pcad help [COMMAND]...", "", "Arguments:"] ++
      columns [("  [COMMAND]...", "Print help for the subcommand(s)")]

end Parametric.CommandLine
