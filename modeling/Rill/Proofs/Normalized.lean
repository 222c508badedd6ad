import Mathlib.Data.List.Forall2
import Rill.Proofs.Joined
import Rill.Proofs.LineEnds
import Rill.Proofs.Reading

/-!
# Normalized — lexing a text before and after its line ends are brought to one form

A `\r` is whitespace, so what goes with it is a byte of a gap.  The lexemes stay, and so do their
lines; their offsets are less by what has gone in front of them.

* `Layout.normalized` — a layout with its gaps changed: `text_normalized` says that it is the layout
  of the changed text;
* `Layout.placed_normalized` — its lexemes, in their places;
* `Diagnostic.Closer source d e` — `e` is `d` with its offsets changed so;
* `lex_normalize` — what lexing yields before and after.
-/

namespace Rill

open Utf8 Lexeme

/-! ## Lexemes and gaps -/

namespace Lexeme

/-- A character that is written with a whitespace byte is in no lexeme. -/
theorem IsLexeme.not_mem {x : String} (h : IsLexeme x) {c : Char} {b : UInt8}
    (hc : b ∈ String.utf8EncodeChar c) (hb : Byte.isWhitespace b = true) : c ∉ x.toList := by
  intro hmem
  have hbytes : b ∈ bytes x := by
    rw [bytes_eq_flatMap]
    exact List.mem_flatMap.2 ⟨c, hmem, hc⟩
  simp [h.isWhitespace_of_mem hbytes] at hb

theorem IsLexeme.return_not_mem {x : String} (h : IsLexeme x) : '\r' ∉ x.toList :=
  h.not_mem (b := 13) (by decide) (by decide)

theorem IsLexeme.newline_not_mem {x : String} (h : IsLexeme x) : '\n' ∉ x.toList :=
  h.not_mem (b := 10) (by decide) (by decide)

/-- Where a lexeme begins, a text may be cut. -/
theorem IsLexeme.collapsed_append {x : String} (h : IsLexeme x) (before after : String) :
    Lines.collapsed (before ++ (x ++ after)) =
      Lines.collapsed before ++ Lines.collapsed (x ++ after) := by
  refine Lines.collapsed_append (Or.inr ?_)
  intro hhead
  have hne : x.toList ≠ [] := fun hnil => h.ne_empty (String.toList_eq_nil_iff.1 hnil)
  rw [String.toList_append, List.head?_append_of_ne_nil _ hne] at hhead
  exact h.newline_not_mem (List.mem_of_mem_head? (by simp [hhead]))

/-- And where it ends. -/
theorem IsLexeme.collapsed_lexeme_append {x : String} (h : IsLexeme x) (after : String) :
    Lines.collapsed (x ++ after) = x ++ Lines.collapsed after := by
  have hlast : x.toList.getLast? ≠ some '\r' := fun hl =>
    h.return_not_mem (List.mem_of_getLast? hl)
  rw [Lines.collapsed_append (Or.inl hlast), Lines.collapsed_eq_self h.return_not_mem]

end Lexeme

namespace Layout

theorem isGap_collapsed {gap : String} (h : IsGap gap) : IsGap (Lines.collapsed gap) := by
  intro b hb
  exact h b (Lines.bytes_collapsed_subset gap hb)

theorem isGap_ending (text : String) : IsGap (Lines.ending text) := by
  have henc : String.utf8EncodeChar '\n' = [10] := by decide
  intro b hb
  rw [Lines.ending, Lines.terminator, bytes_ofList] at hb
  split at hb
  · cases hb
  · have : b = 10 := by simpa [henc] using hb
    subst this
    decide

end Layout

/-! ## Layouts -/

namespace Layout

def Piece.collapsed (p : Piece) : Piece :=
  { p with gap := Lines.collapsed p.gap, isGap := isGap_collapsed p.isGap }

/-- A gap does not become empty. -/
theorem Piece.Apart.collapsed {p q : Piece} (h : p.Apart q) : p.collapsed.Apart q.collapsed :=
  fun hp hq => Lines.collapsed_ne_empty (h hp hq)

def normalized (l : Layout) : Layout where
  pieces := l.pieces.map Piece.collapsed
  tail := Lines.collapsed l.tail ++ Lines.ending l.text
  apart := (List.isChain_map Piece.collapsed).2 (l.apart.imp fun _ _ => Piece.Apart.collapsed)
  isGap_tail := isGap_append (isGap_collapsed l.isGap_tail) (isGap_ending l.text)

theorem collapsed_write (ps : List Piece) (tail : String) :
    Lines.collapsed (write ps tail) = write (ps.map Piece.collapsed) (Lines.collapsed tail) := by
  induction ps with
  | nil => rfl
  | cons p ps ih =>
      rw [write, p.isLexeme.collapsed_append, p.isLexeme.collapsed_lexeme_append, ih]
      rfl

theorem text_normalized (l : Layout) : l.normalized.text = Lines.normalize l.text := by
  calc
    l.normalized.text
        = write (l.pieces.map Piece.collapsed) (Lines.collapsed l.tail) ++ Lines.ending l.text := by
          rw [text, normalized, write_eq_append, ← String.append_assoc, ← write_eq_append]
    _ = Lines.normalize l.text := by rw [← collapsed_write, ← text, Lines.normalize_eq]

end Layout

namespace LineNumber

@[simp]
theorem past_collapsed (line : LineNumber) (gap : String) :
    line.past (Lines.collapsed gap) = line.past gap := by
  rw [past, past, Lines.newlines_collapsed]

end LineNumber

namespace Placed

def collapsed (p : Placed) : Placed :=
  ⟨Lines.collapsed p.before, p.lexeme, p.line⟩

@[simp]
theorem lexeme_collapsed (p : Placed) : p.collapsed.lexeme = p.lexeme := rfl

theorem tokens_map_collapsed (policy : Policy) (ps : List Placed) :
    tokens policy (ps.map collapsed) = tokens policy ps :=
  tokens_map lexeme_collapsed policy ps

end Placed

namespace Layout

/-- Nothing in front ends in a `\r`, as it ends in a lexeme or is empty. -/
theorem placedFrom_map_collapsed {before : String} (h : before.toList.getLast? ≠ some '\r')
    (line : LineNumber) (ps : List Piece) :
    placedFrom (Lines.collapsed before) line (ps.map Piece.collapsed) =
      (placedFrom before line ps).map Placed.collapsed := by
  induction ps generalizing before line with
  | nil => rfl
  | cons p ps ih =>
      have hgap : Lines.collapsed (before ++ p.gap) =
          Lines.collapsed before ++ Lines.collapsed p.gap := Lines.collapsed_append (Or.inl h)
      have hlexeme : Lines.collapsed (before ++ p.gap ++ p.lexeme) =
          Lines.collapsed before ++ Lines.collapsed p.gap ++ p.lexeme := by
        have hx := p.isLexeme.collapsed_append (before ++ p.gap) ""
        simpa [Lines.collapsed_eq_self p.isLexeme.return_not_mem, hgap] using hx
      have hlast : (before ++ p.gap ++ p.lexeme).toList.getLast? ≠ some '\r' := by
        intro hl
        have hne : p.lexeme.toList ≠ [] := fun hnil =>
          p.isLexeme.ne_empty (String.toList_eq_nil_iff.1 hnil)
        rw [String.toList_append, List.getLast?_append_of_ne_nil _ hne] at hl
        exact p.isLexeme.return_not_mem (List.mem_of_getLast? hl)
      rw [List.map_cons, placedFrom, placedFrom, List.map_cons, ← ih hlast, hlexeme]
      simp [Piece.collapsed, Placed.collapsed, hgap]

theorem placed_normalized (l : Layout) : l.normalized.placed = l.placed.map Placed.collapsed := by
  have hfront : "".toList.getLast? ≠ some '\r' := by simp
  exact placedFrom_map_collapsed hfront LineNumber.first l.pieces

theorem newlines_normalize (text : String) :
    newlines (Lines.normalize text) =
      newlines text + if text = "" ∨ text.toList.getLast? = some '\n' then 0 else 1 := by
  rw [Lines.normalize_eq, newlines_append, Lines.newlines_collapsed, Lines.newlines_ending]

theorem toNat_lastLine_normalized {l : Layout} (h : newlines l.text ≤ UInt32.size - 3) :
    l.normalized.lastLine.toNat = l.lastLine.toNat +
      if l.text = "" ∨ l.text.toList.getLast? = some '\n' then 0 else 1 := by
  have hroom : UInt32.size - 3 + 1 = UInt32.size - 2 := rfl
  have hnewlines : newlines l.normalized.text = newlines l.text +
      if l.text = "" ∨ l.text.toList.getLast? = some '\n' then 0 else 1 := by
    rw [text_normalized, newlines_normalize]
  have hbound : newlines l.normalized.text ≤ UInt32.size - 2 := by
    rw [hnewlines]
    split <;> omega
  have hbefore : l.lastLine.toNat = 1 + newlines l.text := counts_lastLine (by omega)
  have hafter : l.normalized.lastLine.toNat = 1 + newlines l.normalized.text :=
    counts_lastLine hbound
  rw [hafter, hbefore, hnewlines, Nat.add_assoc]

end Layout

/-! ## Tokens and diagnostics -/

/-- The diagnostic `d` of `source`, with both ends of its span nearer to the front by the `\r` of
every line end in front of it. -/
structure Diagnostic.Closer (source : String) (d e : Diagnostic) : Prop where
  text : e.text = d.text
  line : e.line = d.line
  span : ∃ before after, source = before ++ after ∧ d.span.start = before.utf8ByteSize ∧
    e.span.start + Lines.returns before.toList = d.span.start ∧
    e.span.stop + Lines.returns before.toList = d.span.stop

namespace Layout

theorem closer_of_mem_placed {l : Layout} {q : Placed} (h : q ∈ l.placed) :
    q.diagnostic.Closer l.text q.collapsed.diagnostic := by
  rcases mem_placed_iff.1 h with ⟨ps, p, qs, hpieces, rfl⟩
  have hsize := Lines.utf8ByteSize_collapsed (write ps p.gap)
  refine ⟨rfl, rfl, write ps p.gap, p.lexeme ++ write qs l.tail, text_eq_of_pieces hpieces, rfl,
    hsize, ?_⟩
  simp only [Placed.collapsed, Placed.diagnostic, String.utf8ByteSize_append]
  omega

theorem forall₂_closer (l : Layout) :
    List.Forall₂ (Diagnostic.Closer l.text) (Placed.diagnostics l.placed)
      (Placed.diagnostics l.normalized.placed) := by
  rw [placed_normalized, Placed.diagnostics_map Placed.lexeme_collapsed, Placed.diagnostics,
    List.forall₂_map_left_iff, List.forall₂_map_right_iff, List.forall₂_same]
  intro q hq
  exact closer_of_mem_placed (List.mem_of_mem_filter hq)

end Layout

/-- Bringing the line ends of a text to one form leaves the tokens as they are, and the diagnostics
but for their offsets.  Only the end of the input is a line further down where the last line had no
end; the listing does not show that. -/
theorem lex_normalize (text : String) (policy : Policy) :
    ∃ (ts : List Token) (last last' : LineNumber),
      (lex text policy).tokens = ts ++ [Token.endOfInput last] ∧
      (lex (Lines.normalize text) policy).tokens = ts ++ [Token.endOfInput last'] ∧
      (∀ t ∈ ts, t.kind ≠ .endOfInput) ∧
      (newlines text ≤ UInt32.size - 3 →
        last'.toNat = last.toNat +
          if text = "" ∨ text.toList.getLast? = some '\n' then 0 else 1) ∧
      List.Forall₂ (Diagnostic.Closer text) (lex text policy).diagnostics
        (lex (Lines.normalize text) policy).diagnostics ∧
      (lex (Lines.normalize text) policy).render = (lex text policy).render := by
  rcases Layout.exists_text_eq text with ⟨l, rfl⟩
  have htokens : (l.normalized.lexed policy).tokens =
      Placed.tokens policy l.placed ++ [Token.endOfInput l.normalized.lastLine] := by
    rw [Layout.lexed, Layout.placed_normalized, Placed.tokens_map_collapsed]
  rw [← Layout.text_normalized, Layout.lex_text, Layout.lex_text]
  refine ⟨Placed.tokens policy l.placed, l.lastLine, l.normalized.lastLine, rfl, htokens, ?_,
    Layout.toNat_lastLine_normalized, Layout.forall₂_closer l, ?_⟩
  · intro t ht
    rcases List.mem_map.1 ht with ⟨q, -, rfl⟩
    exact kind_ne_endOfInput q.lexeme
  · -- The line of a token is not written out.
    have hrender : ∀ line : LineNumber, (Token.endOfInput line).render = "EOF" := fun _ => rfl
    rw [Lexed.render, Lexed.render, htokens]
    simp [Token.renderAll, Layout.lexed, hrender]

end Rill
