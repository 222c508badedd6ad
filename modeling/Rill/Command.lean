import Rill.File.Path
import Rill.File.Source
import Rill.Lexed

/-!
# Command — what the program does with its arguments

* `Command.parseOption`, `Command.parseOptions` — the flags that follow the path of a file.  There
  is one flag, which names the policy for unknown lexemes, and the last one has its way;
* `Command.OptionError` — an argument that is no such flag, or names no policy;
* `Command.Outcome` — all that a run leaves behind: an exit code and two texts;
* `Command.Request` — what arguments ask for: an answer that is there already, or a listing of a
  file that has yet to be read;
* `Command.run` — from arguments to the outcome, on a given disk, with the log written out in a
  given way.
-/

namespace Rill
namespace Command

/-! ## Flags -/

inductive OptionError
  | unknownPolicy (value : String)
  | unknownFlag (arg : String)
  deriving DecidableEq, Repr

def OptionError.message : OptionError → String
  | unknownPolicy value =>
      "unknown value '" ++ value ++ "' for --on-unknown (expected 'drop' or 'error')"
  | unknownFlag arg => "unknown option '" ++ arg ++ "'"

/-- What the flag begins with; the name of a policy follows. -/
def policyFlag : String := "--on-unknown="

/-- What an argument says behind the flag, if it is the flag. -/
def flagValue? (arg : String) : Option String :=
  if policyFlag.toList.isPrefixOf arg.toList then
    some (String.ofList (arg.toList.drop policyFlag.length))
  else none

def parseOption (arg : String) : Except OptionError Policy :=
  match flagValue? arg with
  | none => .error (.unknownFlag arg)
  | some value =>
      match Policy.ofName? value with
      | some policy => .ok policy
      | none => .error (.unknownPolicy value)

def parseOptions (args : List String) : Except OptionError Policy :=
  args.foldlM (fun _ arg => parseOption arg) default

/-! ## Fixed texts -/

def versionText : String :=
  "Rill 0.1.0\n"

/-- Said of a `lex` that no path follows. -/
def lexUsage : String :=
  "Usage: rill lex <file.rill> [--on-unknown=drop|error]\n"

def usageLines : List String :=
  ["Rill lexer",
    "",
    "Usage: rill <command> [options]",
    "",
    "Commands:",
    "  lex <file.rill>      Tokenize a file and print the token list",
    "  <file.rill>          Same as `lex <file.rill>`",
    "  help                 Show this help message",
    "  version              Show version information",
    "",
    "Lex options:",
    "  --on-unknown=drop    Skip lexemes that are not keywords, integers, or identifiers (default)",
    "  --on-unknown=error   Emit them as ERROR tokens instead",
    "",
    "Environment:",
    "  RUST_LOG             Enable logging, e.g. RUST_LOG=rill_lexer=trace",
    "",
    "Examples:",
    "  rill lex main.rill",
    "  rill main.rill --on-unknown=error"]

def usage : String :=
  String.join (usageLines.map (· ++ "\n"))

/-! ## Outcomes -/

structure Outcome where
  code : UInt32
  stdout : String
  stderr : String
  deriving DecidableEq, Repr

namespace Outcome

def success (stdout : String) : Outcome :=
  ⟨0, stdout, ""⟩

def failure (message : String) : Outcome :=
  ⟨1, "", "error: " ++ message ++ "\n"⟩

end Outcome

/-! ## Requests -/

inductive Request
  | answer (outcome : Outcome)
  | list (path : String) (policy : Policy)
  deriving DecidableEq, Repr

/-- What is wrong with the flags is said before the file is looked at. -/
def listRequest (path : String) (flags : List String) : Request :=
  match parseOptions flags with
  | .ok policy => .list path policy
  | .error e => .answer (.failure e.message)

/-- Whether an argument is the name of a source, so that `lex` need not be said. -/
def isSourceName (arg : String) : Bool :=
  match File.extension? arg with
  | some extension => extension.toLower = "rill"
  | none => false

def unknownCommand (command : String) : Outcome :=
  ⟨1, usage, "Unknown command: " ++ command ++ "\n\n"⟩

def Request.ofArgs : List String → Request
  | [] => .answer (.success usage)
  | ["lex"] => .answer ⟨1, "", lexUsage⟩
  | "lex" :: path :: flags => listRequest path flags
  | "help" :: _ | "--help" :: _ | "-h" :: _ => .answer (.success usage)
  | "version" :: _ | "--version" :: _ | "-V" :: _ => .answer (.success versionText)
  | command :: flags =>
      if isSourceName command then listRequest command flags
      else .answer (unknownCommand command)

/-! ## Running -/

/-- The log goes out with the listing, as `logText` writes it.  A file that cannot be read leaves
nothing in it. -/
def listOutcome (logText : List Log.Entry → String) (policy : Policy)
    (source : Except File.ReadError File.Source) : Outcome :=
  match source with
  | .error e => .failure e.message
  | .ok s =>
      let listing := Listing.ofSource s.text policy
      ⟨0, listing.text ++ "\n", logText (.event s.event :: listing.log)⟩

def run (disk : File.Disk) (logText : List Log.Entry → String) (args : List String) : Outcome :=
  match Request.ofArgs args with
  | .answer outcome => outcome
  | .list path policy => listOutcome logText policy (File.readSource disk path)

end Command
end Rill
