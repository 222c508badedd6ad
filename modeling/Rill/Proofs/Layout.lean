import Mathlib.Data.List.Chain
import Rill.Proofs.Words

/-!
# Layout — a source as whitespace and lexemes

A source is nothing but lexemes with whitespace around them.  A `Layout` names the parts; writing it
out is plain concatenation, and says nothing of how a source is read.

* `Layout.Piece` — a lexeme, and the gap in front of it;
* `Layout` — pieces, of which no two are words that touch, and the gap behind the last one;
* `Layout.text` — the source that it is a layout of;
* `Layout.text_inj`, `Layout.exists_text_eq` — every source has exactly one.
-/

namespace Rill

open Utf8 Lexeme

namespace Layout

/-- Whitespace only, or nothing at all. -/
def IsGap (text : String) : Prop :=
  ∀ b ∈ bytes text, Byte.isWhitespace b = true

@[ext]
structure Piece where
  gap : String
  lexeme : String
  isGap : IsGap gap
  isLexeme : IsLexeme lexeme

/-- Two words that touch would be one. -/
def Piece.Apart (p q : Piece) : Prop :=
  IsWord p.lexeme → IsWord q.lexeme → q.gap ≠ ""

end Layout

@[ext]
structure Layout where
  pieces : List Layout.Piece
  tail : String
  apart : pieces.IsChain Layout.Piece.Apart
  isGap_tail : Layout.IsGap tail

namespace Layout

/-! ## Writing -/

@[simp]
theorem Piece.newlines_lexeme (p : Piece) : newlines p.lexeme = 0 :=
  p.isLexeme.newlines_eq_zero

@[simp]
def write : List Piece → String → String
  | [], tail => tail
  | p :: ps, tail => p.gap ++ (p.lexeme ++ write ps tail)

def text (l : Layout) : String :=
  write l.pieces l.tail

def lexemes (l : Layout) : List String :=
  l.pieces.map Piece.lexeme

/-- What is in front of a lexeme, the lexeme, and what is behind it. -/
theorem write_append_cons (ps : List Piece) (p : Piece) (qs : List Piece) (tail : String) :
    write (ps ++ p :: qs) tail = write ps p.gap ++ (p.lexeme ++ write qs tail) := by
  induction ps with
  | nil => rfl
  | cons r rs ih => simp [ih]

/-- A lexeme of a layout, between what is in front of it and what is behind. -/
theorem text_eq_of_pieces {l : Layout} {ps qs : List Piece} {p : Piece}
    (h : l.pieces = ps ++ p :: qs) :
    l.text = write ps p.gap ++ (p.lexeme ++ write qs l.tail) := by
  rw [text, h, write_append_cons]

theorem stops_of_isGap {text : String} (h : IsGap text) : Stops Byte.isInner text := by
  intro b hb
  exact Byte.isInner_of_isWhitespace (h b (List.mem_of_mem_head? (by simp [hb])))

/-- The gap in front of a lexeme is over where the lexeme begins. -/
theorem stops_lexeme (p : Piece) (after : String) :
    Stops Byte.isWhitespace (p.lexeme ++ after) :=
  stops_append p.isLexeme.ne_empty p.isLexeme.stops_isWhitespace after

/-- Where nothing keeps the next lexeme apart from a word, it is a mark. -/
theorem stops_gap_append {p q : Piece} (h : p.Apart q) (hp : IsWord p.lexeme) {rest : String}
    (hrest : IsMark q.lexeme → Stops Byte.isInner rest) : Stops Byte.isInner (q.gap ++ rest) := by
  by_cases hgap : q.gap = ""
  · rw [hgap, String.empty_append]
    exact hrest (q.isLexeme.resolve_right fun hq => h hp hq hgap)
  · exact stops_append hgap (stops_of_isGap q.isGap) _

/-- What is behind a word begins with whitespace, with a mark, or not at all. -/
theorem stops_write {p : Piece} {ps : List Piece} {tail : String}
    (hps : (p :: ps).IsChain Piece.Apart) (htail : IsGap tail) (hp : IsWord p.lexeme) :
    Stops Byte.isInner (write ps tail) := by
  cases ps with
  | nil => exact stops_of_isGap htail
  | cons q qs =>
      refine stops_gap_append (List.isChain_cons_cons.1 hps).1 hp fun hmark => ?_
      exact stops_append hmark.ne_empty hmark.stops_isInner _

/-- A lexeme of a layout is over where the rest of the layout begins. -/
theorem ends_write {p : Piece} {ps : List Piece} {tail : String}
    (hps : (p :: ps).IsChain Piece.Apart) (htail : IsGap tail) :
    Ends p.lexeme (write ps tail) := by
  rcases p.isLexeme with hmark | hword
  · exact Or.inl hmark
  · exact Or.inr ⟨hword, stops_write hps htail hword⟩

/-! ## One layout at most -/

/-- A text without lexemes has no layout with one. -/
theorem write_cons_ne {q : Piece} {qs : List Piece} {t u : String} (ht : IsGap t) :
    t ≠ write (q :: qs) u := by
  intro h
  -- Both texts begin with a run of whitespace; behind that of `t` there is no lexeme.
  have hsplit : t ++ "" = q.gap ++ (q.lexeme ++ write qs u) := by simpa using h
  rcases append_inj_of_stops ht (stops_empty _) q.isGap (stops_lexeme q _) hsplit with ⟨_, hrest⟩
  have hempty : q.lexeme = "" := (String.append_eq_empty_iff.1 hrest.symm).1
  exact q.isLexeme.ne_empty hempty

theorem write_inj {ps qs : List Piece} {t u : String}
    (hps : ps.IsChain Piece.Apart) (hqs : qs.IsChain Piece.Apart) (ht : IsGap t) (hu : IsGap u)
    (h : write ps t = write qs u) : ps = qs ∧ t = u := by
  induction ps generalizing qs with
  | nil =>
      cases qs with
      | nil => exact ⟨rfl, h⟩
      | cons q qs => exact absurd h (write_cons_ne ht)
  | cons p ps ih =>
      cases qs with
      | nil => exact absurd h.symm (write_cons_ne hu)
      | cons q qs =>
          -- The gaps are first runs, the lexemes first lexemes; the rest is by induction.
          rcases append_inj_of_stops p.isGap (stops_lexeme p _) q.isGap (stops_lexeme q _) h with
            ⟨hgap, hrest⟩
          rcases (ends_write hps ht).append_inj (ends_write hqs hu) hrest with ⟨hlexeme, htext⟩
          rcases ih hps.tail hqs.tail htext with ⟨rfl, htail⟩
          have hpiece : p = q := Piece.ext hgap hlexeme
          exact ⟨by rw [hpiece], htail⟩

theorem text_inj {l m : Layout} : l.text = m.text ↔ l = m := by
  constructor
  · intro h
    rcases write_inj l.apart m.apart l.isGap_tail m.isGap_tail h with ⟨hpieces, htail⟩
    exact Layout.ext hpieces htail
  · intro h
    rw [h]

/-! ## One layout at least -/

/-- Words that end where the rest begins are not gone on with by the rest. -/
theorem apart_of_ends {p q : Piece} {after : String}
    (h : Ends p.lexeme (q.gap ++ (q.lexeme ++ after))) : p.Apart q := by
  intro hp hq hgap
  rcases h with ⟨c, hc, hpunct⟩ | ⟨_, hstops⟩
  · -- A mark is not a word.
    have hinner : Byte.isInner c = true := hp.2 c (by simp [hc])
    simp [Byte.isInner_of_isPunctuation hpunct] at hinner
  · -- The first byte of `q` would have gone on with the word `p`.
    rcases exists_head?_of_ne_empty hq.1 with ⟨b, hb, hmem⟩
    have hinner : Byte.isInner b = false := by
      apply hstops
      simpa [hgap] using (head?_bytes_append hq.1 after).trans hb
    simp [hq.2 b hmem] at hinner

theorem isChain_cons {p : Piece} {l : Layout} (h : Ends p.lexeme l.text) :
    (p :: l.pieces).IsChain Piece.Apart := by
  rcases l with ⟨pieces, tail, hapart, _⟩
  cases pieces with
  | nil => exact List.isChain_singleton p
  | cons q qs => exact List.isChain_cons_cons.2 ⟨apart_of_ends h, hapart⟩

/-- Puts a piece in front of a layout. -/
def cons (p : Piece) (l : Layout) (h : Ends p.lexeme l.text) : Layout where
  pieces := p :: l.pieces
  tail := l.tail
  apart := isChain_cons h
  isGap_tail := l.isGap_tail

theorem text_cons {p : Piece} {l : Layout} (h : Ends p.lexeme l.text) :
    (l.cons p h).text = p.gap ++ (p.lexeme ++ l.text) := rfl

/-- By induction on how much of the source is left behind its first gap and its first lexeme. -/
theorem exists_text_eq (source : String) : ∃ l : Layout, l.text = source := by
  induction hn : source.utf8ByteSize using Nat.strongRecOn generalizing source with
  | ind n ih =>
      rcases exists_run Byte.whole_isWhitespace source with
        ⟨gap, rest, rfl, hgap, hstops⟩
      by_cases hrest : rest = ""
      · -- Whitespace only is a layout without pieces.
        subst hrest
        exact ⟨⟨[], gap, List.isChain_nil, hgap⟩, by simp [text]⟩
      · -- What is behind the first lexeme is shorter, and so has a layout to put it in front of.
        rcases exists_ends hrest hstops with ⟨x, after, rfl, hx⟩
        have hpos : x.utf8ByteSize ≠ 0 := by simpa using hx.isLexeme.ne_empty
        have hlt : after.utf8ByteSize < n := by
          simp only [String.utf8ByteSize_append] at hn
          omega
        rcases ih _ hlt after rfl with ⟨l, rfl⟩
        exact ⟨l.cons ⟨gap, x, hgap, hx.isLexeme⟩ hx, rfl⟩

end Layout
end Rill
