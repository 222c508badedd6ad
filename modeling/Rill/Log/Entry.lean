import Rill.Unknown

/-!
# Entry — what the log of a run can hold

* `Log.Level` — how much an entry matters: from `error`, which nearly every filter lets through, to
  `trace`;
* `Log.Event` — something that happened, with its `level`, `target`, `message` and `fields`;
* `Log.Entry` — an event, or one of the three marks of a scan: it is announced, begun, ended;
* `Log.Field` — a name and a value, as an entry shows them;
* `Log.silent` — a way to write out a log: nothing of it.
-/

namespace Rill
namespace Log

/-! ## Levels -/

inductive Level
  | error
  | warn
  | info
  | debug
  | trace
  deriving DecidableEq, Repr

namespace Level

/-- The higher the rank, the more detail. -/
def rank : Level → Nat
  | error => 1
  | warn => 2
  | info => 3
  | debug => 4
  | trace => 5

def name : Level → String
  | error => "ERROR"
  | warn => "WARN"
  | info => "INFO"
  | debug => "DEBUG"
  | trace => "TRACE"

def all : List Level :=
  [error, warn, info, debug, trace]

end Level

/-! ## Fields -/

/-- A value is a number, a text as it stands, or a text that is written between quotation marks. -/
inductive Value
  | number (n : Nat)
  | plain (text : String)
  | quoted (text : String)
  deriving DecidableEq, Repr

structure Field where
  name : String
  value : Value
  deriving DecidableEq, Repr

/-! ## Events -/

/-- `unknown` is noted while the source is scanned; `reported` is the same finding, told to the user
once the scan is over. -/
inductive Event
  | sourceRead (path : String) (size : Nat)
  | unknown (text : String) (line : LineNumber) (span : Span)
  | scanComplete (tokens diagnostics : Nat) (line : LineNumber)
  | reported (line : LineNumber) (span : Span) (text : String)
  deriving DecidableEq, Repr

namespace Event

def level : Event → Level
  | sourceRead .. => .debug
  | unknown .. => .trace
  | scanComplete .. => .debug
  | reported .. => .warn

/-- The part of the program that the event comes from: filters select by it. -/
def target : Event → String
  | sourceRead .. => "rillc::input"
  | unknown .. => "rill_lexer::scanner"
  | scanComplete .. => "rill_lexer::scanner"
  | reported .. => "rillc::commands::lex"

def message : Event → String
  | sourceRead .. => "read source"
  | unknown .. => "unrecognized lexeme"
  | scanComplete .. => "scan complete"
  | reported .. => "unrecognized lexeme"

def fields : Event → List Field
  | sourceRead path size => [⟨"path", .plain path⟩, ⟨"bytes", .number size⟩]
  | unknown text line span =>
      [⟨"text", .quoted text⟩, ⟨"line", .number line.toNat⟩, ⟨"span", .plain span.render⟩]
  | scanComplete tokens diagnostics line =>
      [⟨"tokens", .number tokens⟩, ⟨"errors", .number diagnostics⟩,
        ⟨"lines", .number line.toNat⟩]
  | reported line span text =>
      [⟨"line", .number line.toNat⟩, ⟨"span", .plain span.render⟩, ⟨"text", .plain text⟩]

end Event

/-! ## Entries -/

inductive Entry
  | scanAnnounced (size : Nat) (policy : Policy)
  | scanBegun
  | scanEnded
  | event (e : Event)
  deriving DecidableEq, Repr

/-- What is written of a log that was not asked for. -/
def silent (_ : List Entry) : String :=
  ""

/-! ## The scan as a context of its events -/

namespace ScanContext

def name : String := "lex_with_config"

def level : Level := .debug

def target : String := "rill_lexer"

def fields (size : Nat) (policy : Policy) : List Field :=
  [⟨"len", .number size⟩, ⟨"policy", .plain policy.label⟩]

end ScanContext

end Log
end Rill
