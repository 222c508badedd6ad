import Mathlib.Data.List.Basic
import Rill.Proofs.Layout

/-!
# Joined — the layout of two sources, one behind the other

Where no word goes over the place at which two sources meet, the layout of both together is the
layout of the one and then that of the other; the whitespace on either side of the place becomes one
gap.

* `Lexeme.Severs s t` — no word goes from `s` over into `t`;
* `Layout.indent` — a layout with whitespace in front;
* `Layout.append` — two layouts put together: `text_append` says that it is the layout of both
  sources;
* `Layout.exists_pieces_eq` — whatever reads as a lexeme of a source is a lexeme of its layout.
-/

namespace Rill

open Utf8 Lexeme

/-! ## Where sources meet -/

namespace Lexeme

/-- One of the two sides of the place keeps words away from it. -/
def Severs (s t : String) : Prop :=
  Starts Byte.isInner s ∨ Stops Byte.isInner t

theorem severs_iff {s t : String} :
    Severs s t ↔ s = "" ∨ t = "" ∨
      (∃ b, (bytes s).getLast? = some b ∧ Byte.isBoundary b = true) ∨
      ∃ b, (bytes t).head? = some b ∧ Byte.isBoundary b = true := by
  simp only [Severs, starts_iff, stops_iff, Byte.isInner_eq_false_iff]
  rw [or_or_or_comm, or_assoc]

/-- A word goes over from `s` into `t` only if it has bytes in both. -/
theorem Severs.false_of_isWord {s t x y : String} (h : Severs (s ++ x) (y ++ t)) (hx : IsWord x)
    (hy : IsWord y) : False := by
  rcases h with hstarts | hstops
  · rcases exists_getLast?_of_ne_empty hx.1 with ⟨b, hb, hmem⟩
    have houter : Byte.isInner b = false :=
      hstarts b ((getLast?_bytes_append s hx.1).trans hb)
    simp [hx.2 b hmem] at houter
  · rcases exists_head?_of_ne_empty hy.1 with ⟨b, hb, hmem⟩
    have houter : Byte.isInner b = false :=
      hstops b ((head?_bytes_append hy.1 t).trans hb)
    simp [hy.2 b hmem] at houter

end Lexeme

namespace Layout

/-! ## Whitespace in front -/

theorem isGap_empty : IsGap "" := by
  intro b hb
  simp at hb

theorem isGap_append {s t : String} (hs : IsGap s) (ht : IsGap t) : IsGap (s ++ t) := by
  intro b hb
  rw [bytes_append] at hb
  rcases List.mem_append.1 hb with hb | hb
  · exact hs b hb
  · exact ht b hb

theorem starts_of_isGap {text : String} (h : IsGap text) : Starts Byte.isInner text := by
  intro b hb
  exact Byte.isInner_of_isWhitespace (h b (List.mem_of_getLast? hb))

variable {gap : String}

def Piece.indent (hgap : IsGap gap) (p : Piece) : Piece :=
  { p with gap := gap ++ p.gap, isGap := isGap_append hgap p.isGap }

/-- What a piece has to keep apart from what is behind it is its lexeme. -/
theorem isChain_indent (hgap : IsGap gap) {p : Piece} {ps : List Piece}
    (h : (p :: ps).IsChain Piece.Apart) : (p.indent hgap :: ps).IsChain Piece.Apart := by
  cases ps with
  | nil => exact List.isChain_singleton _
  | cons q qs =>
      rcases List.isChain_cons_cons.1 h with ⟨hpq, hqs⟩
      exact List.isChain_cons_cons.2 ⟨hpq, hqs⟩

/-- The whitespace goes to the first gap there is. -/
def indent (hgap : IsGap gap) : Layout → Layout
  | ⟨[], tail, apart, isGap_tail⟩ => ⟨[], gap ++ tail, apart, isGap_append hgap isGap_tail⟩
  | ⟨p :: ps, tail, apart, isGap_tail⟩ =>
      ⟨p.indent hgap :: ps, tail, isChain_indent hgap apart, isGap_tail⟩

@[simp]
theorem text_indent (hgap : IsGap gap) (l : Layout) : (l.indent hgap).text = gap ++ l.text := by
  rcases l with ⟨pieces, tail, _, _⟩
  cases pieces with
  | nil => rfl
  | cons p ps => simp [indent, Piece.indent, text]

theorem exists_of_head?_indent {hgap : IsGap gap} {l : Layout} {q : Piece}
    (h : (l.indent hgap).pieces.head? = some q) :
    ∃ p ps, l.pieces = p :: ps ∧ q = p.indent hgap := by
  rcases l with ⟨pieces, tail, _, _⟩
  cases pieces with
  | nil => simp [indent] at h
  | cons p ps => exact ⟨p, ps, rfl, by simpa [indent, eq_comm] using h⟩

/-! ## Two layouts -/

theorem write_append (ps qs : List Piece) (tail : String) :
    write (ps ++ qs) tail = write ps "" ++ write qs tail := by
  induction ps with
  | nil => simp
  | cons p ps ih => simp [ih]

/-- A tail is written behind everything else. -/
theorem write_eq_append (ps : List Piece) (tail : String) :
    write ps tail = write ps "" ++ tail := by
  simpa using write_append ps [] tail

/-- Where the sources are severed, the last lexeme of the one and the first of the other are not
two words that touch. -/
theorem apart_of_severs {l m : Layout} (h : Severs l.text m.text) {p q : Piece}
    (hp : l.pieces.getLast? = some p) (hq : (m.indent l.isGap_tail).pieces.head? = some q) :
    p.Apart q := by
  rcases List.getLast?_eq_some_iff.1 hp with ⟨ps, hps⟩
  rcases exists_of_head?_indent hq with ⟨r, rs, hrs, rfl⟩
  intro hpword hqword hgap
  -- With no gap in between, `l` ends in the word `p`, and `m` begins with the word `r`.
  rcases String.append_eq_empty_iff.1 hgap with ⟨htail, hrgap⟩
  have hl : l.text = write ps p.gap ++ p.lexeme := by
    simp [text, hps, write_append_cons, htail]
  have hm : m.text = r.lexeme ++ write rs m.tail := by
    simp [text, hrs, hrgap]
  rw [hl, hm] at h
  exact h.false_of_isWord hpword hqword

def append (l m : Layout) (h : Severs l.text m.text) : Layout where
  pieces := l.pieces ++ (m.indent l.isGap_tail).pieces
  tail := (m.indent l.isGap_tail).tail
  apart := List.isChain_append.2 ⟨l.apart, (m.indent l.isGap_tail).apart, fun _ hp _ hq =>
    apart_of_severs h hp hq⟩
  isGap_tail := (m.indent l.isGap_tail).isGap_tail

@[simp]
theorem text_append (l m : Layout) (h : Severs l.text m.text) :
    (l.append m h).text = l.text ++ m.text := by
  calc
    (l.append m h).text = write l.pieces "" ++ (m.indent l.isGap_tail).text := write_append _ _ _
    _ = write l.pieces "" ++ l.tail ++ m.text := by simp
    _ = l.text ++ m.text := by rw [← write_eq_append, ← text]

/-! ## What stands around a lexeme -/

/-- In front of a word there is whitespace, a mark, or nothing. -/
theorem starts_write {ps : List Piece} {p : Piece} (hps : (ps ++ [p]).IsChain Piece.Apart)
    (hp : IsWord p.lexeme) : Starts Byte.isInner (write ps p.gap) := by
  by_cases hgap : p.gap = ""
  · rcases List.eq_nil_or_concat' ps with rfl | ⟨rs, r, rfl⟩
    · exact starts_of_isGap p.isGap
    · -- Nothing keeps `p` apart from `r`, so `r` is a mark.
      have hapart : r.Apart p :=
        (List.isChain_append.1 hps).2.2 r (by simp) p (by simp)
      have hmark : IsMark r.lexeme := r.isLexeme.resolve_right fun hr => hapart hr hp hgap
      have htext : write (rs ++ [r]) p.gap = write rs r.gap ++ r.lexeme := by
        simp [write_append_cons, hgap]
      rw [htext]
      exact starts_append hmark.ne_empty hmark.starts_isInner _
  · rw [write_eq_append]
    exact starts_append hgap (starts_of_isGap p.isGap) _

/-- What stands in a source and is over where the rest begins is a lexeme of its layout, if no word
goes over into it from what is in front. -/
theorem exists_pieces_eq {l : Layout} {before x after : String}
    (htext : l.text = before ++ (x ++ after)) (hx : Ends x after)
    (hbefore : Severs before (x ++ after)) :
    ∃ ps p qs, l.pieces = ps ++ p :: qs ∧ write ps p.gap = before ∧ p.lexeme = x := by
  rcases exists_text_eq before with ⟨front, rfl⟩
  rcases exists_text_eq after with ⟨back, rfl⟩
  -- The layout of `front`, the lexeme, and the layout of `back` make a layout of the source, and
  -- there is one only.
  let lexeme : Piece := ⟨"", x, isGap_empty, hx.isLexeme⟩
  have hrest : (back.cons lexeme hx).text = x ++ back.text := by
    simp [text, Layout.cons, lexeme]
  rw [← hrest] at hbefore
  have hl : l = front.append (back.cons lexeme hx) hbefore := by
    apply text_inj.1
    rw [htext, text_append, hrest]
  refine ⟨front.pieces, lexeme.indent front.isGap_tail, back.pieces, ?_, ?_, rfl⟩
  · rw [hl]
    rfl
  · simp [Piece.indent, lexeme, text]

end Layout
end Rill
