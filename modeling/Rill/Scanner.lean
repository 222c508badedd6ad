import Rill.Cursor
import Rill.Log.Entry
import Rill.Token

/-!
# Scanner — one pass over a source

* `Scanner` — how far the pass has come, and what it has found;
* `Scanner.step` — takes the whitespace, the punctuation mark or the word at the cursor;
* `Scanner.run` — steps to the end of the source; each step brings it nearer
  (`remaining_lt_of_step`);
* `Scanner.scan` — the whole pass.

A step cuts lexemes out of the source, which `Cursor.slice` may refuse; that it never does is shown
in `Rill.Scanner.Safety`.
-/

namespace Rill

structure Scanner where
  cursor : Cursor
  line : LineNumber
  policy : Policy
  tokens : Array Token
  diagnostics : Array Diagnostic
  events : Array Log.Event
  deriving DecidableEq, Repr

namespace Scanner

def start (source : String) (policy : Policy) : Scanner where
  cursor := Cursor.start source
  line := LineNumber.first
  policy := policy
  tokens := #[]
  diagnostics := #[]
  events := #[]

/-! ## What a step can take -/

def takeWhitespace (s : Scanner) : Scanner :=
  let (cursor, newlines) := s.cursor.eatWhitespace
  { s with cursor := cursor, line := s.line.advance newlines }

def takePunctuation (s : Scanner) (mark : Punctuation) : Except SliceFault Scanner :=
  let cursor := s.cursor.advance
  (cursor.sliceFrom s.cursor.pos).map fun lexeme =>
    { s with cursor := cursor, tokens := s.tokens.push ⟨.punctuation mark, lexeme, s.line⟩ }

/-- Reports a word that is no lexeme, and lets the policy decide about a token for it. -/
def reject (s : Scanner) (text : String) (span : Span) : Scanner :=
  { s with
    tokens := match s.policy with
      | .drop => s.tokens
      | .errorToken => s.tokens.push ⟨.error, text, s.line⟩
    diagnostics := s.diagnostics.push ⟨text, s.line, span⟩
    events := s.events.push (.unknown text s.line span) }

def takeCandidate (s : Scanner) : Except SliceFault Scanner :=
  let cursor := s.cursor.eatCandidate
  (cursor.sliceFrom s.cursor.pos).map fun text =>
    match Lexeme.classify text with
    | some kind => { s with cursor := cursor, tokens := s.tokens.push ⟨kind, text, s.line⟩ }
    | none => { s with cursor := cursor }.reject text ⟨s.cursor.pos, cursor.pos⟩

/-! ## Stepping -/

/-- At the end of the source there is nothing to take. -/
def step (s : Scanner) : Except SliceFault Scanner :=
  match s.cursor.current? with
  | none => .ok s
  | some b =>
      if Byte.isWhitespace b then .ok s.takeWhitespace
      else match Punctuation.ofByte? b with
        | some mark => s.takePunctuation mark
        | none => s.takeCandidate

theorem cursor_of_takePunctuation {s t : Scanner} {mark : Punctuation}
    (h : s.takePunctuation mark = .ok t) : t.cursor = s.cursor.advance := by
  unfold takePunctuation at h
  dsimp only at h
  cases hc : s.cursor.advance.sliceFrom s.cursor.pos with
  | error f => rw [hc] at h; cases h
  | ok lexeme => rw [hc] at h; cases h; rfl

theorem cursor_of_takeCandidate {s t : Scanner} (h : s.takeCandidate = .ok t) :
    t.cursor = s.cursor.eatCandidate := by
  unfold takeCandidate at h
  dsimp only at h
  cases hc : s.cursor.eatCandidate.sliceFrom s.cursor.pos with
  | error f => rw [hc] at h; cases h
  | ok text =>
      rw [hc] at h
      cases h
      dsimp only
      split <;> rfl

theorem remaining_lt_of_step {s t : Scanner} (hs : s.cursor.atEnd = false) (h : s.step = .ok t) :
    t.cursor.remaining < s.cursor.remaining := by
  unfold step at h
  split at h
  case h_1 hn =>
    rw [← Cursor.atEnd_iff_current?_eq_none, hs] at hn
    cases hn
  case h_2 b hb =>
    split at h
    case isTrue hw =>
      cases h
      exact Cursor.remaining_eatWhile_lt hb hw
    case isFalse hw =>
      split at h
      case h_1 mark hm =>
        rw [cursor_of_takePunctuation h]
        exact Cursor.remaining_advance_lt hb
      case h_2 hm =>
        -- A byte that is no mark of the table does not end a word: the run in front of the cursor
        -- has that byte at least.
        have hpunct : Byte.isPunctuation b = false := Punctuation.ofByte?_eq_none_iff.1 hm
        have hinner : (!Byte.isBoundary b) = true := by simp [Byte.isBoundary, hw, hpunct]
        rw [cursor_of_takeCandidate h]
        exact Cursor.remaining_eatWhile_lt hb hinner

/-- Steps until the end of the source. -/
def run (s : Scanner) : Except SliceFault Scanner :=
  if _hs : s.cursor.atEnd then .ok s
  else match _ht : s.step with
    | .error fault => .error fault
    | .ok t => t.run
termination_by s.cursor.remaining
decreasing_by exact remaining_lt_of_step (by simpa using _hs) _ht

/-! ## The whole pass -/

/-- Closes the list of tokens, and notes how much was found. -/
def finish (s : Scanner) : Scanner :=
  let tokens := s.tokens.push (Token.endOfInput s.line)
  { s with
    tokens := tokens
    events := s.events.push (.scanComplete tokens.size s.diagnostics.size s.line) }

def scan (source : String) (policy : Policy) : Except SliceFault Scanner :=
  (start source policy).run.map finish

end Scanner

end Rill
