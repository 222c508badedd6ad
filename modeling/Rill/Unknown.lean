import Rill.Place

/-!
# Unknown — words that are no lexeme of the language

Such a word is the one thing that the lexer complains about, and it is reported under either policy;
the policy decides whether a token stands for it in the list.

* `Policy` — the two ways to go on;
* `Diagnostic` — the complaint, with its `message`.
-/

namespace Rill

/-! ## Policies -/

inductive Policy
  | drop
  | errorToken
  deriving DecidableEq, Repr

namespace Policy

/-- Unknown words are dropped unless something else is asked for. -/
instance : Inhabited Policy := ⟨drop⟩

/-- The policy that a word of the command line asks for. -/
def ofName? : String → Option Policy
  | "drop" => some drop
  | "error" => some errorToken
  | _ => none

/-- How the log writes a policy. -/
def label : Policy → String
  | drop => "Drop"
  | errorToken => "ErrorToken"

end Policy

/-! ## Diagnostics -/

structure Diagnostic where
  text : String
  line : LineNumber
  span : Span
  deriving DecidableEq, Repr

namespace Diagnostic

def message (d : Diagnostic) : String :=
  "line " ++ d.line.render ++ ": unrecognized lexeme `" ++ d.text ++ "`"

end Diagnostic

end Rill
