import Rill.Proofs.Placed
import Rill.Proofs.Reachable

/-!
# Reading — a scanner goes through a layout part by part

Each step of a scanner takes one gap or one lexeme, and notes what there is to say about it.

* `Scanner.note` — a scanner that has found the lexemes of a list;
* `Scanner.step_gap`, `Scanner.step_lexeme` — what one step does where a gap, or a lexeme, stands;
* `Scanner.run_write` — what the steps do together;
* `Layout.lex_text` — lexing the text of a layout yields what the layout says.
-/

namespace Rill

open Utf8 Lexeme Layout

namespace Diagnostic

/-- How the log of a scan notes a diagnostic. -/
def event (d : Diagnostic) : Log.Event :=
  .unknown d.text d.line d.span

end Diagnostic

namespace Scanner

variable {s : Scanner} {before after : String}

/-! ## Notes -/

def note (s : Scanner) (ps : List Placed) : Scanner :=
  { s with
    tokens := s.tokens ++ (Placed.tokens s.policy ps).toArray
    diagnostics := s.diagnostics ++ (Placed.diagnostics ps).toArray
    events := s.events ++ ((Placed.diagnostics ps).map Diagnostic.event).toArray }

theorem note_nil (s : Scanner) : s.note [] = s := by
  simp [note, Placed.tokens, Placed.diagnostics]

theorem note_note (s : Scanner) (ps qs : List Placed) :
    (s.note ps).note qs = s.note (ps ++ qs) := by
  simp [note]

/-- A lexeme that the language has gets a token, whatever the policy. -/
theorem note_of_kind? {x : String} {line : LineNumber} {k : Token.Kind} (h : kind? x = some k) :
    s.note [⟨before, x, line⟩] = { s with tokens := s.tokens.push ⟨k, x, line⟩ } := by
  simp [note, Placed.tokens, Placed.diagnostics, Placed.hasToken, Placed.isUnknown, Placed.token,
    kind, h]

theorem reject_eq_note {x : String} (h : kind? x = none) :
    s.reject x ⟨before.utf8ByteSize, (before ++ x).utf8ByteSize⟩ =
      s.note [⟨before, x, s.line⟩] := by
  rcases s with ⟨cursor, line, policy, tokens, diagnostics, events⟩
  cases policy <;>
    simp [reject, note, Placed.tokens, Placed.diagnostics, Placed.hasToken, Placed.isUnknown,
      Placed.token, Placed.diagnostic, Diagnostic.event, kind, h]

def moveTo (s : Scanner) (cursor : Cursor) (line : LineNumber) : Scanner :=
  { s with cursor := cursor, line := line }

@[simp]
theorem line_moveTo (s : Scanner) (cursor : Cursor) (line : LineNumber) :
    (s.moveTo cursor line).line = line := rfl

@[simp]
theorem moveTo_self (s : Scanner) : s.moveTo s.cursor s.line = s := rfl

@[simp]
theorem moveTo_moveTo (s : Scanner) (c d : Cursor) (line last : LineNumber) :
    (s.moveTo c line).moveTo d last = s.moveTo d last := rfl

/-- Where a scanner stands is nothing to its notes. -/
@[simp]
theorem note_moveTo (s : Scanner) (cursor : Cursor) (line : LineNumber) (ps : List Placed) :
    (s.moveTo cursor line).note ps = (s.note ps).moveTo cursor line := rfl

/-! ## Steps -/

/-- The scanner looks at the first byte of what it is going to take. -/
theorem current?_of_cursor {x : String} {b : UInt8}
    (hs : s.cursor = .between before (x ++ after)) (hb : (bytes x).head? = some b) :
    s.cursor.current? = some b := by
  calc
    s.cursor.current? = (bytes (x ++ after)).head? := by
          rw [hs, Cursor.current?_between]
    _ = some b := by rw [head?_bytes_append (ne_empty_of_head? hb), hb]

/-- What the cursor has moved over is the text that is cut out. -/
theorem sliceFrom_of_cursor {x : String} (hs : s.cursor = .between before (x ++ after)) :
    (Cursor.between (before ++ x) after).sliceFrom s.cursor.pos = .ok x := by
  rw [hs]
  exact Cursor.sliceFrom_between before x after

theorem step_gap {gap : String} (hs : s.cursor = .between before (gap ++ after)) (hgap : IsGap gap)
    (hne : gap ≠ "") (hafter : Stops Byte.isWhitespace after) :
    s.step = .ok (s.moveTo (.between (before ++ gap) after) (s.line.past gap)) := by
  -- The first byte decides which step is made; the gap is all that this step takes.
  rcases exists_head?_of_ne_empty hne with ⟨b, hb, hmem⟩
  have hcurrent : s.cursor.current? = some b := current?_of_cursor hs hb
  have hw : Byte.isWhitespace b = true := hgap b hmem
  have heat : s.cursor.eatWhitespace =
      (.between (before ++ gap) after, UInt32.ofNat (newlines gap)) := by
    simpa [hs] using Cursor.eatWhitespace_between hgap hafter
  simp [step, hcurrent, hw, takeWhitespace, heat, moveTo, LineNumber.past]

theorem step_mark {x : String} (hs : s.cursor = .between before (x ++ after)) (hx : IsMark x) :
    s.step =
      .ok ((s.note [⟨before, x, s.line⟩]).moveTo (.between (before ++ x) after) s.line) := by
  rcases exists_mark?_eq_some hx with ⟨b, mark, hb, hbyte, hmark⟩
  have hcurrent : s.cursor.current? = some b := current?_of_cursor hs (by simp [hb])
  have hw : Byte.isWhitespace b = false := IsLexeme.isWhitespace_of_mem (Or.inl hx) (by simp [hb])
  have hkind : kind? x = some (.punctuation mark) := by simp [kind?, hmark]
  -- The mark is one byte long, and one byte is how far the cursor moves.
  have hadvance : s.cursor.advance = .between (before ++ x) after := by
    simpa [hs] using Cursor.advance_between hb
  simp [step, hcurrent, hw, hbyte, takePunctuation, hadvance, sliceFrom_of_cursor hs, Except.map,
    note_of_kind? hkind, moveTo]

theorem step_word {x : String} (hs : s.cursor = .between before (x ++ after)) (hx : IsWord x)
    (hafter : Stops Byte.isInner after) :
    s.step =
      .ok ((s.note [⟨before, x, s.line⟩]).moveTo (.between (before ++ x) after) s.line) := by
  rcases exists_head?_of_ne_empty hx.1 with ⟨b, hb, hmem⟩
  have hinner : Byte.isInner b = true := hx.2 b hmem
  have hcurrent : s.cursor.current? = some b := current?_of_cursor hs hb
  have hw : Byte.isWhitespace b = false := Byte.isWhitespace_of_isInner hinner
  have hbyte : Punctuation.ofByte? b = none :=
    Punctuation.ofByte?_eq_none_iff.2 (Byte.isPunctuation_of_isInner hinner)
  have hkind : kind? x = classify x := by simp [kind?, mark?_eq_none_of_isWord hx]
  -- All bytes of the word are inner ones, and the next one is not: the run is the word.
  have heat : s.cursor.eatCandidate = .between (before ++ x) after := by
    rw [hs]
    exact Cursor.eatWhile_between hx.2 hafter
  have hpos : s.cursor.pos = before.utf8ByteSize := by
    rw [hs]
    rfl
  have hcut := sliceFrom_of_cursor hs
  simp only [step, hcurrent, hw, hbyte, takeCandidate, heat, hcut, Except.map]
  cases hc : classify x with
  | some k => simp [note_of_kind? (hkind.trans hc), moveTo]
  | none =>
      -- The cursor has moved already when the word is turned down.
      have hreject :
          (s.moveTo (.between (before ++ x) after) s.line).reject x
              ⟨before.utf8ByteSize, (before ++ x).utf8ByteSize⟩ =
            (s.moveTo (.between (before ++ x) after) s.line).note [⟨before, x, s.line⟩] :=
        reject_eq_note (hkind.trans hc)
      simp only [hpos]
      exact congrArg Except.ok hreject

theorem step_lexeme {x : String} (hs : s.cursor = .between before (x ++ after))
    (hx : Ends x after) :
    s.step =
      .ok ((s.note [⟨before, x, s.line⟩]).moveTo (.between (before ++ x) after) s.line) := by
  rcases hx with hmark | ⟨hword, hafter⟩
  · exact step_mark hs hmark
  · exact step_word hs hword hafter

/-! ## Runs -/

theorem atEnd_of_between {text : String} (hs : s.cursor = .between before text)
    (hne : text ≠ "") : s.cursor.atEnd = false := by
  refine Bool.eq_false_iff.2 ?_
  intro hend
  rw [hs] at hend
  exact hne (Cursor.atEnd_between_iff.1 hend)

/-- A gap may be empty: then nothing is done, and nothing has to be. -/
theorem run_gap {gap : String} (hs : s.cursor = .between before (gap ++ after)) (hgap : IsGap gap)
    (hafter : Stops Byte.isWhitespace after) :
    s.run = (s.moveTo (.between (before ++ gap) after) (s.line.past gap)).run := by
  by_cases hne : gap = ""
  · subst hne
    have hcursor : Cursor.between (before ++ "") after = s.cursor := by
      simpa using hs.symm
    rw [hcursor, LineNumber.past_empty, moveTo_self]
  · have hend : s.cursor.atEnd = false := atEnd_of_between hs (by simp [hne])
    exact run_of_step hend (step_gap hs hgap hne hafter)

theorem run_lexeme {x : String} (hs : s.cursor = .between before (x ++ after))
    (hx : Ends x after) :
    s.run =
      ((s.note [⟨before, x, s.line⟩]).moveTo (.between (before ++ x) after) s.line).run := by
  have hend : s.cursor.atEnd = false := atEnd_of_between hs (by simp [hx.isLexeme.ne_empty])
  exact run_of_step hend (step_lexeme hs hx)

/-- The steps over a layout, by induction on its pieces: the scanner comes to the end of the text,
with all its lexemes noted. -/
theorem run_write {ps : List Piece} {tail : String} (hps : ps.IsChain Piece.Apart)
    (htail : IsGap tail) (hs : s.cursor = .between before (write ps tail)) :
    s.run = .ok ((s.note (placedFrom before s.line ps)).moveTo
      (.between (before ++ write ps tail) "") (lineFrom s.line ps tail)) := by
  induction ps generalizing s before with
  | nil =>
      -- Only the last gap is left, and behind it the pass is over.
      have hgap : s.cursor = .between before (tail ++ "") := by simpa using hs
      rw [run_gap hgap htail (stops_empty _), run_of_atEnd (Cursor.atEnd_between_iff.2 rfl)]
      simp [note_nil]
  | cons p ps ih =>
      -- A gap, a lexeme, and then the rest from where these leave the scanner.
      rw [run_gap hs p.isGap (stops_lexeme p _), run_lexeme rfl (ends_write hps htail),
        ih hps.tail rfl]
      simp only [note_moveTo, moveTo_moveTo, note_note, line_moveTo, List.singleton_append,
        placedFrom, lineFrom, write, String.append_assoc]

/-! ## The whole pass -/

theorem ofSource_text (l : Layout) (policy : Policy) :
    ofSource l.text policy =
      (((start l.text policy).note l.placed).moveTo (.between l.text "") l.lastLine).finish := by
  have hstart : (start l.text policy).cursor = .between "" l.text :=
    Cursor.start_eq_between l.text
  have hrun := run_write l.apart l.isGap_tail hstart
  have htext : "" ++ write l.pieces l.tail = l.text := String.empty_append
  -- A scan is a run from the start, and `ofSource` what comes out of it.
  have hscan := scan_eq_ok l.text policy
  rw [scan, hrun, htext] at hscan
  exact (Except.ok.inj hscan).symm

end Scanner

namespace Layout

@[simp]
theorem lex_text (l : Layout) (policy : Policy) : lex l.text policy = l.lexed policy := by
  simp [lex, lexWithLog, Scanner.ofSource_text, Scanner.finish, Scanner.moveTo, Scanner.note,
    Scanner.start, lexed]

end Layout
end Rill
