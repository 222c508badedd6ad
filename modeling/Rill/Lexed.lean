import Rill.Scanner.Safety

/-!
# Lexed — what lexing a source yields

* `Lexed` — a list of tokens, closed by one for the end of the input, and a list of diagnostics;
* `lex` — the tokens and diagnostics of a source;
* `lexWithLog` — the same, with what the log of the run holds;
* `Listing` — the tokens as the user sees them, and the log of how they came about;
* `Listing.ofSource` — lexes a source, and reports every diagnostic to the log once that is done.
-/

namespace Rill

structure Lexed where
  tokens : List Token
  diagnostics : List Diagnostic
  deriving DecidableEq, Repr

namespace Lexed

def hasDiagnostics (l : Lexed) : Bool :=
  !l.diagnostics.isEmpty

def render (l : Lexed) : String :=
  Token.renderAll l.tokens

end Lexed

def lexWithLog (source : String) (policy : Policy) : Lexed × List Log.Entry :=
  let s := Scanner.ofSource source policy
  (⟨s.tokens.toList, s.diagnostics.toList⟩,
    [.scanAnnounced source.utf8ByteSize policy, .scanBegun]
      ++ s.events.toList.map .event ++ [.scanEnded])

def lex (source : String) (policy : Policy) : Lexed :=
  (lexWithLog source policy).1

/-! ## Listings -/

structure Listing where
  text : String
  log : List Log.Entry
  deriving DecidableEq, Repr

namespace Listing

def report (d : Diagnostic) : Log.Entry :=
  .event (.reported d.line d.span d.text)

def ofSource (source : String) (policy : Policy) : Listing :=
  let (lexed, log) := lexWithLog source policy
  ⟨lexed.render, log ++ lexed.diagnostics.map report⟩

end Listing

end Rill
