import Parametric.CommandLine.Help
import Parametric.CommandLine.Run
/-! The program: it reads what a command asks for, and does what the command comes to. -/

set_option autoImplicit false

namespace Parametric.CommandLine

def randomId {kind : IdKind} : IO (Id kind) := do
  let bytes ← IO.getRandomBytes 16
  let marked := (bytes.set! 6 (bytes[6]! &&& 0x0f ||| 0x40)).set! 8 (bytes[8]! &&& 0x3f ||| 0x80)
  return Id.ofNat (marked.foldl (fun value byte => 256 * value + byte.toNat) 0)

def readFiles (paths : List String) : IO Files := do
  let contents ← paths.mapM fun (path : String) => do
    return (path, ← (some <$> IO.FS.readBinFile path) <|> pure none)
  let present ← paths.filterM fun (path : String) =>
    (do let _ ← IO.FS.realPath path; return true) <|> pure false
  return ⟨fun path => (contents.lookup path).join, (present.contains ·)⟩

def report (failure : Failure) : IO UInt32 := do
  IO.eprintln failure.text
  return 1

end Parametric.CommandLine

open Parametric CommandLine in
def main (words : List String) : IO UInt32 := do
  match Request.ofWords words with
  | .error (.help subject) =>
    IO.print (helpText subject)
    return 0
  | .error .malformed =>
    IO.eprint (helpText .program)
    return 2
  | .ok request => match request.run (← readFiles request.paths) (← randomId) with
    | .error failure => report failure
    | .ok (.printed output) =>
      IO.print output
      return 0
    | .ok (.stored path contents output) =>
      let stored ← (do IO.FS.writeFile path contents; return true) <|> pure false
      if stored then
        IO.print output
        return 0
      else report (.unwritable path)
