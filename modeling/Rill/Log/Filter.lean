import Rill.Log.Entry
import Rill.Text.Split

/-!
# Filter — which entries of the log are shown

A filter is a list of directives.  A directive says, for the targets that begin with its own, how
much detail is shown; of the directives that apply, the one with the longest target decides, and of
two with the same target the later one.

* `Log.Directive`, `Log.Filter` — directives and lists of them;
* `Log.Filter.parse` — a filter from its text: `debug`, or `first=trace,first::second=off`;
* `Log.Filter.shows` — whether an entry of some target and level is shown.
-/

namespace Rill
namespace Log

/-- `threshold` is the level with the most detail that is shown, if any is. -/
structure Directive where
  target : String
  threshold : Option Level
  deriving DecidableEq, Repr

abbrev Filter := List Directive

/-! ## Thresholds -/

namespace Level

/-- The words for thresholds, in any case; `off` shows nothing. -/
def ofWord? (word : String) : Option (Option Level) :=
  if word.toLower = "off" then some none
  else (all.find? fun level => level.name.toLower = word.toLower).map some

end Level

namespace Directive

/-- A level alone is for every target, and a target alone shows all that it has. -/
def parse? (text : String) : Option Directive :=
  match Level.ofWord? text with
  | some threshold => some ⟨"", threshold⟩
  | none =>
      match Text.split '=' text with
      | [target] => some ⟨target, some .trace⟩
      | [target, word] => (Level.ofWord? word).map fun threshold => ⟨target, threshold⟩
      | _ => none

def appliesTo (d : Directive) (target : String) : Bool :=
  d.target.toList.isPrefixOf target.toList

def shows (d : Directive) (level : Level) : Bool :=
  match d.threshold with
  | some threshold => level.rank ≤ threshold.rank
  | none => false

end Directive

namespace Filter

/-- Without any directive only errors are shown. -/
def parse (text : String) : Filter :=
  match (Text.split ',' text).filterMap fun part =>
      if part.isEmpty then none else Directive.parse? part with
  | [] => [⟨"", some .error⟩]
  | directives => directives

/-- The directive that decides about a target. -/
def deciding? (f : Filter) (target : String) : Option Directive :=
  (f.filter (·.appliesTo target)).foldl
    (fun best d =>
      match best with
      | some b => if b.target.length ≤ d.target.length then some d else some b
      | none => some d)
    none

def shows (f : Filter) (target : String) (level : Level) : Bool :=
  match f.deciding? target with
  | some d => d.shows level
  | none => false

end Filter

end Log
end Rill
