import Rill.Log.Filter
import Rill.Text.Quoted

/-!
# Line — the log as lines of text

An event is a line: its level, the scan that it belongs to, its target, its message, its fields.
The time at which it happened is not part of the line.

* `Log.Event.line` — the line of one event;
* `Log.lines` — the lines of a whole log, as far as a filter shows them;
* `Log.text` — all of them as one text, if there is a filter.
-/

namespace Rill
namespace Log

/-! ## One event -/

namespace Field

def render (f : Field) : String :=
  f.name ++ "=" ++
    match f.value with
    | .number n => toString n
    | .plain text => text
    | .quoted text => Text.quote text

end Field

def renderFields (fields : List Field) : String :=
  " ".intercalate (fields.map Field.render)

namespace Level

/-- Levels are set flush right in a column of five. -/
def column (level : Level) : String :=
  String.ofList (level.name.toList.leftpad 5 ' ')

end Level

namespace ScanContext

/-- The scan as it stands in front of the events that belong to it. -/
def label (size : Nat) (policy : Policy) : String :=
  name ++ "\x7b" ++ renderFields (fields size policy) ++ "\x7d: "

end ScanContext

namespace Event

def line (e : Event) (context : String) : String :=
  e.level.column ++ " " ++ context ++ e.target ++ ": " ++ e.message ++ " " ++
    renderFields e.fields

end Event

/-! ## The whole log -/

/-- The scan that was announced last, and the one that events belong to at the moment: both as
labels, empty where there is none or the filter hides it. -/
structure Context where
  announced : String
  current : String
  deriving DecidableEq, Repr

def linesFrom (filter : Filter) (context : Context) : List Entry → List String
  | [] => []
  | .scanAnnounced size policy :: rest =>
      let label :=
        if filter.shows ScanContext.target ScanContext.level then ScanContext.label size policy
        else ""
      linesFrom filter { context with announced := label } rest
  | .scanBegun :: rest => linesFrom filter { context with current := context.announced } rest
  | .scanEnded :: rest => linesFrom filter { context with current := "" } rest
  | .event e :: rest =>
      if filter.shows e.target e.level then
        e.line context.current :: linesFrom filter context rest
      else linesFrom filter context rest

def lines (filter : Filter) (entries : List Entry) : List String :=
  linesFrom filter ⟨"", ""⟩ entries

/-- How the log is written out: without a filter, not at all. -/
def text : Option Filter → List Entry → String
  | some f => fun entries => String.join ((lines f entries).map (· ++ "\n"))
  | none => silent

end Log
end Rill
