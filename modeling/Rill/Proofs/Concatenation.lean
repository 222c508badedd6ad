import Rill.Proofs.Joined
import Rill.Proofs.Reading

/-!
# Concatenation — lexing two sources at once, or one after the other

Where no word goes over the place at which they meet, it makes no difference but to lines and
offsets, which go on counting.

* `Token.behind s`, `Diagnostic.behind s`, `Placed.behind s` — what was found in a source, as it is
  found where `s` stands in front of that source;
* `Layout.placed_append`, `Layout.lastLine_append` — the lexemes of two layouts put together;
* `lex_append` — the tokens and diagnostics of two sources put together.
-/

namespace Rill

open Utf8 Lexeme

/-! ## Lines behind two texts -/

namespace LineNumber

theorem past_append {line : LineNumber} {s t : String}
    (h : line.toNat + newlines (s ++ t) < UInt32.size) :
    line.past (s ++ t) = (line.past s).past t := by
  have hst := newlines_append s t
  have hs : (line.past s).toNat = line.toNat + newlines s := toNat_past (by omega)
  apply UInt32.toNat_inj.1
  calc
    (line.past (s ++ t)).toNat = line.toNat + newlines (s ++ t) := toNat_past h
    _ = (line.past s).toNat + newlines t := by omega
    _ = ((line.past s).past t).toNat := (toNat_past (by omega)).symm

/-- Which of two texts is counted first makes no difference, not even at the last line. -/
theorem past_comm (line : LineNumber) (s t : String) :
    (line.past s).past t = (line.past t).past s := by
  apply UInt32.toNat_inj.1
  simp only [past, toNat_advance]
  omega

end LineNumber

/-! ## What is found behind a text -/

def Token.behind (s : String) (t : Token) : Token :=
  { t with line := t.line.past s }

def Diagnostic.behind (s : String) (d : Diagnostic) : Diagnostic where
  text := d.text
  line := d.line.past s
  span := ⟨s.utf8ByteSize + d.span.start, s.utf8ByteSize + d.span.stop⟩

namespace Placed

def behind (s : String) (p : Placed) : Placed :=
  ⟨s ++ p.before, p.lexeme, p.line.past s⟩

@[simp]
theorem lexeme_behind (s : String) (p : Placed) : (p.behind s).lexeme = p.lexeme := rfl

theorem tokens_map_behind (s : String) (policy : Policy) (ps : List Placed) :
    tokens policy (ps.map (behind s)) = (tokens policy ps).map (Token.behind s) := by
  have htoken : token ∘ behind s = Token.behind s ∘ token := rfl
  rw [tokens_map (lexeme_behind s), htoken, tokens, List.map_map]

theorem diagnostics_map_behind (s : String) (ps : List Placed) :
    diagnostics (ps.map (behind s)) = (diagnostics ps).map (Diagnostic.behind s) := by
  have hdiagnostic : diagnostic ∘ behind s = Diagnostic.behind s ∘ diagnostic := by
    funext p
    simp [diagnostic, behind, Diagnostic.behind]
  rw [diagnostics_map (lexeme_behind s), hdiagnostic, diagnostics, List.map_map]

end Placed

namespace Layout

variable {before gap tail : String} {line : LineNumber}

theorem placedFrom_behind (s before : String) (line : LineNumber) (ps : List Piece) :
    placedFrom (s ++ before) (line.past s) ps =
      (placedFrom before line ps).map (Placed.behind s) := by
  induction ps generalizing before line with
  | nil => rfl
  | cons p ps ih =>
      simp [Placed.behind, LineNumber.past_comm line s, ← ih]

theorem lineFrom_behind (s tail : String) (line : LineNumber) (ps : List Piece) :
    lineFrom (line.past s) ps tail = (lineFrom line ps tail).past s := by
  induction ps generalizing line with
  | nil => exact LineNumber.past_comm line s tail
  | cons p ps ih =>
      rw [lineFrom, LineNumber.past_comm, ih]
      rfl

/-! ## Pieces in front, whitespace in front -/

theorem placedFrom_append (before : String) (line : LineNumber) (ps qs : List Piece) :
    placedFrom before line (ps ++ qs) = placedFrom before line ps ++
      placedFrom (before ++ write ps "") (lineFrom line ps "") qs := by
  induction ps generalizing before line with
  | nil => simp
  | cons p ps ih => simp [ih]

theorem lineFrom_append (line : LineNumber) (ps qs : List Piece) (tail : String) :
    lineFrom line (ps ++ qs) tail = lineFrom (lineFrom line ps "") qs tail := by
  induction ps generalizing line with
  | nil => simp
  | cons p ps ih => exact ih (line.past p.gap)

/-- The line behind a lexeme is the line that it stands in. -/
theorem lineFrom_append_cons (line : LineNumber) (ps : List Piece) (p : Piece) (qs : List Piece)
    (tail : String) :
    lineFrom line (ps ++ p :: qs) tail = lineFrom (lineFrom line ps p.gap) qs tail := by
  induction ps generalizing line with
  | nil => rfl
  | cons r rs ih => exact ih (line.past r.gap)

/-- The whitespace and the first gap are counted as one, which is the same if the lines fit. -/
theorem past_gap_indent (hgap : IsGap gap) {p : Piece} {ps : List Piece}
    (h : line.toNat + newlines (gap ++ write (p :: ps) tail) < UInt32.size) :
    line.past (p.indent hgap).gap = (line.past gap).past p.gap := by
  apply LineNumber.past_append
  simp only [write, newlines_append] at h ⊢
  omega

theorem placedFrom_indent (hgap : IsGap gap) {l : Layout}
    (h : line.toNat + newlines (gap ++ l.text) < UInt32.size) :
    placedFrom before line (l.indent hgap).pieces =
      placedFrom (before ++ gap) (line.past gap) l.pieces := by
  rcases l with ⟨pieces, tail, _, _⟩
  cases pieces with
  | nil => rfl
  | cons p ps =>
      simp only [indent, placedFrom, past_gap_indent hgap h]
      simp [Piece.indent]

theorem lineFrom_indent (hgap : IsGap gap) {l : Layout}
    (h : line.toNat + newlines (gap ++ l.text) < UInt32.size) :
    lineFrom line (l.indent hgap).pieces (l.indent hgap).tail =
      lineFrom (line.past gap) l.pieces l.tail := by
  rcases l with ⟨pieces, tail, _, _⟩
  cases pieces with
  | nil => exact LineNumber.past_append h
  | cons p ps => simp only [indent, lineFrom, past_gap_indent hgap h]

/-! ## Two layouts -/

variable {l m : Layout}

/-- Counted gap by gap, or all at once, the lines of a source are as many. -/
theorem past_tail (h : newlines l.text ≤ UInt32.size - 2) :
    (lineFrom LineNumber.first l.pieces "").past l.tail = LineNumber.first.past l.text := by
  have hlast : (lineFrom LineNumber.first l.pieces "").past l.tail = l.lastLine := by
    simpa [lastLine] using (lineFrom_append LineNumber.first l.pieces [] l.tail).symm
  rw [hlast]
  exact UInt32.toNat_inj.1 ((counts_lastLine h).trans (LineNumber.counts_past_first h).symm)

/-- Where the pieces of `l` end, its last gap and all of `m` can still be counted. -/
theorem fits_behind_pieces (h : newlines (l.text ++ m.text) ≤ UInt32.size - 2) :
    (lineFrom LineNumber.first l.pieces "").toNat + newlines (l.tail ++ m.text) < UInt32.size := by
  have htext : l.text ++ m.text = write l.pieces "" ++ (l.tail ++ m.text) := by
    rw [text, write_eq_append, String.append_assoc]
  rw [htext] at h
  have hfront : newlines (write l.pieces "") ≤ UInt32.size - 2 := by
    rw [newlines_append] at h
    omega
  exact LineNumber.fits (Nat.le_of_eq (counts_lineFrom_first hfront)) h

theorem newlines_le_of_append (h : newlines (l.text ++ m.text) ≤ UInt32.size - 2) :
    newlines l.text ≤ UInt32.size - 2 := by
  rw [newlines_append] at h
  omega

theorem newlines_le_of_append_right (h : newlines (l.text ++ m.text) ≤ UInt32.size - 2) :
    newlines m.text ≤ UInt32.size - 2 := by
  rw [newlines_append] at h
  omega

theorem placed_append (hcut : Severs l.text m.text)
    (h : newlines (l.text ++ m.text) ≤ UInt32.size - 2) :
    (l.append m hcut).placed = l.placed ++ m.placed.map (Placed.behind l.text) := by
  have htext : "" ++ write l.pieces "" ++ l.tail = l.text ++ "" := by
    rw [String.empty_append, ← write_eq_append, String.append_empty, text]
  calc
    (l.append m hcut).placed = l.placed ++ placedFrom ("" ++ write l.pieces "")
        (lineFrom LineNumber.first l.pieces "") (m.indent l.isGap_tail).pieces :=
          placedFrom_append _ _ _ _
    _ = l.placed ++ placedFrom (l.text ++ "") (LineNumber.first.past l.text) m.pieces := by
          rw [placedFrom_indent l.isGap_tail (fits_behind_pieces h), htext,
            past_tail (newlines_le_of_append h)]
    _ = l.placed ++ m.placed.map (Placed.behind l.text) := by
          rw [placedFrom_behind]
          rfl

theorem lastLine_append (hcut : Severs l.text m.text)
    (h : newlines (l.text ++ m.text) ≤ UInt32.size - 2) :
    (l.append m hcut).lastLine = m.lastLine.past l.text := by
  calc
    (l.append m hcut).lastLine = lineFrom (lineFrom LineNumber.first l.pieces "")
        (m.indent l.isGap_tail).pieces (m.indent l.isGap_tail).tail := lineFrom_append _ _ _ _
    _ = lineFrom (LineNumber.first.past l.text) m.pieces m.tail := by
          rw [lineFrom_indent l.isGap_tail (fits_behind_pieces h),
            past_tail (newlines_le_of_append h)]
    _ = m.lastLine.past l.text := lineFrom_behind _ _ _ _

/-- A line of `m` can still be counted behind `l`. -/
theorem toNat_past_text {line : LineNumber} (h : newlines (l.text ++ m.text) ≤ UInt32.size - 2)
    (hline : line.toNat ≤ 1 + newlines m.text) :
    (line.past l.text).toNat = line.toNat + newlines l.text := by
  have hswap : newlines (m.text ++ l.text) ≤ UInt32.size - 2 := by
    simpa [Nat.add_comm] using h
  exact LineNumber.toNat_past (LineNumber.fits hline hswap)

/-- What is found in a layout is in one of its lines. -/
theorem toNat_line_le {q : Placed} (hq : q ∈ l.placed) (h : newlines l.text ≤ UInt32.size - 2) :
    q.line.toNat ≤ 1 + newlines l.text := by
  rcases mem_placed_iff.1 hq with ⟨ps, p, qs, hpieces, rfl⟩
  have hcounts : (lineFrom LineNumber.first ps p.gap).toNat = 1 + newlines (write ps p.gap) :=
    counts_front h hpieces
  have htext : newlines l.text =
      newlines (write ps p.gap) + newlines (p.lexeme ++ write qs l.tail) := by
    rw [text_eq_of_pieces hpieces, newlines_append]
  simp only [hcounts, htext]
  omega

theorem toNat_line_le_of_mem_tokens {policy : Policy} {u : Token} (hu : u ∈ (m.lexed policy).tokens)
    (h : newlines m.text ≤ UInt32.size - 2) : u.line.toNat ≤ 1 + newlines m.text := by
  simp only [lexed, Placed.tokens, List.mem_append, List.mem_map, List.mem_filter,
    List.mem_singleton] at hu
  rcases hu with ⟨q, ⟨hq, -⟩, rfl⟩ | rfl
  · exact toNat_line_le hq h
  · exact Nat.le_of_eq (counts_lastLine h)

theorem toNat_line_le_of_mem_diagnostics {d : Diagnostic} (hd : d ∈ Placed.diagnostics m.placed)
    (h : newlines m.text ≤ UInt32.size - 2) : d.line.toNat ≤ 1 + newlines m.text := by
  simp only [Placed.diagnostics, List.mem_map, List.mem_filter] at hd
  rcases hd with ⟨q, ⟨hq, -⟩, rfl⟩
  exact toNat_line_le hq h

end Layout

/-- Lexing goes through at any place that no word goes over: what is found in two sources together
is what is found in the one and then, further on by its lines and bytes, what is found in the
other. -/
theorem lex_append (s t : String) (policy : Policy)
    (hbound : newlines (s ++ t) ≤ UInt32.size - 2)
    (hcut : s = "" ∨ t = "" ∨
      (∃ b, (bytes s).getLast? = some b ∧ Byte.isBoundary b = true) ∨
      ∃ b, (bytes t).head? = some b ∧ Byte.isBoundary b = true) :
    (∃ (ts : List Token) (last : LineNumber),
      (lex s policy).tokens = ts ++ [Token.endOfInput last] ∧
      (lex (s ++ t) policy).tokens = ts ++ (lex t policy).tokens.map (Token.behind s)) ∧
    (lex (s ++ t) policy).diagnostics =
      (lex s policy).diagnostics ++ (lex t policy).diagnostics.map (Diagnostic.behind s) ∧
    (∀ u ∈ (lex t policy).tokens, (u.behind s).line.toNat = u.line.toNat + newlines s) ∧
    ∀ d ∈ (lex t policy).diagnostics, (d.behind s).line.toNat = d.line.toNat + newlines s := by
  rcases Layout.exists_text_eq s with ⟨l, rfl⟩
  rcases Layout.exists_text_eq t with ⟨m, rfl⟩
  have hsevers : Severs l.text m.text := severs_iff.2 hcut
  have hm : newlines m.text ≤ UInt32.size - 2 := Layout.newlines_le_of_append_right hbound
  have hlex := Layout.lex_text (l.append m hsevers) policy
  rw [Layout.text_append] at hlex
  rw [hlex, Layout.lex_text, Layout.lex_text]
  refine ⟨⟨Placed.tokens policy l.placed, l.lastLine, rfl, ?_⟩, ?_, ?_, ?_⟩
  · simp [Layout.lexed, Layout.placed_append hsevers hbound, Layout.lastLine_append hsevers hbound,
      Placed.tokens_map_behind, Token.behind, Token.endOfInput]
  · simp [Layout.lexed, Layout.placed_append hsevers hbound, Placed.diagnostics_map_behind]
  · intro u hu
    exact Layout.toNat_past_text hbound (Layout.toNat_line_le_of_mem_tokens hu hm)
  · intro d hd
    exact Layout.toNat_past_text hbound (Layout.toNat_line_le_of_mem_diagnostics hd hm)

/-- A line end on either side of the place: they are in one gap, and count for two. -/
theorem lex_append_within_gap :
    newlines ("x \n" ++ "\n$") ≤ UInt32.size - 2 ∧
    (∃ b, (bytes "x \n").getLast? = some b ∧ Byte.isBoundary b = true) ∧
    (lex ("x \n" ++ "\n$") .errorToken).diagnostics = [⟨"$", 3, ⟨4, 5⟩⟩] := by
  have hbound : newlines ("x \n" ++ "\n$") ≤ UInt32.size - 2 := by decide +kernel
  have hlast : ∃ b, (bytes "x \n").getLast? = some b ∧ Byte.isBoundary b = true :=
    ⟨10, by decide +kernel, by decide⟩
  have happend := lex_append "x \n" "\n$" .errorToken hbound (Or.inr (Or.inr (Or.inl hlast)))
  refine ⟨hbound, hlast, ?_⟩
  rw [happend.2.1]
  decide +kernel

end Rill
