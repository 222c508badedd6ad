import Rill.Command
import Rill.Log.Line

/-!
# Main — the command line program
-/

namespace Rill
namespace Program

/-- Error numbers of the system come as they are, or negated. -/
def errorNumber (code : UInt32) : UInt32 :=
  if code < 0x80000000 then code else 0 - code

/-- The program's word for what the system reported. -/
def failureOf : IO.Error → File.Failure
  | .noFileOrDirectory .. => .notFound
  | .permissionDenied .. => .permissionDenied
  | e@(.inappropriateType _ code _) =>
      if errorNumber code = 21 then .isDirectory
      else if errorNumber code = 20 then .notDirectory
      else .other (toString e)
  | e@(.resourceExhausted _ code _) | e@(.invalidArgument _ code _) =>
      if errorNumber code = 36 then .nameTooLong else .other (toString e)
  | e => .other (toString e)

def readBytes (path : String) : IO (Except File.Failure ByteArray) := do
  try
    return .ok (← IO.FS.readBinFile path)
  catch e =>
    return .error (failureOf e)

def finish (outcome : Command.Outcome) : IO UInt32 := do
  (← IO.getStderr).putStr outcome.stderr
  (← IO.getStdout).putStr outcome.stdout
  return outcome.code

end Program
end Rill

open Rill in
def main (args : List String) : IO UInt32 := do
  let logText := Log.text ((← IO.getEnv "RUST_LOG").map Log.Filter.parse)
  match Command.Request.ofArgs args with
  | .answer outcome => Program.finish outcome
  | .list path policy =>
      let content ← Program.readBytes path
      Program.finish (Command.listOutcome logText policy (File.sourceOf path content))
