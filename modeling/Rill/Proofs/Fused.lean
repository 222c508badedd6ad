import Rill.Proofs.Concatenation

/-!
# Fused — two sources with a word across the place where they meet

Where the one source ends in a word and the other begins with one, the two words are one.  All that
is in front of them, and all that is behind, is found as in the two sources by themselves.

* `Layout.Seam l m` — the word that `l` ends in and the word that `m` begins with:
  `Layout.exists_seam` finds them from the bytes on either side;
* `Layout.Seam.layout` — the layout of both sources, with one word for the two;
* `Layout.Seam.placed_layout`, `Layout.Seam.lastLine_layout` — its lexemes in their places;
* `lex_append_fused` — the tokens and diagnostics of two sources that meet so.
-/

namespace Rill

open Utf8 Lexeme Layout

/-- What there is to say about the word between two offsets. -/
def Diagnostic.ofWord (word : String) (line : LineNumber) (start stop : Nat) : List Diagnostic :=
  if classify word = none then [⟨word, line, ⟨start, stop⟩⟩] else []

theorem Placed.diagnostics_of_isWord {before x : String} {line : LineNumber} (hx : IsWord x) :
    diagnostics [⟨before, x, line⟩] =
      Diagnostic.ofWord x line before.utf8ByteSize (before ++ x).utf8ByteSize := by
  unfold Diagnostic.ofWord
  split
  case isTrue hnone => simp [diagnostics, isUnknown, hx.kind?_eq, hnone, diagnostic]
  case isFalse hsome => simp [diagnostics, isUnknown, hx.kind?_eq, hsome]

namespace Layout

/-! ## Where the words meet -/

/-- `l` ends in the word `last`, with nothing behind it, and `m` begins with the word `first`, with
nothing in front of it. -/
structure Seam (l m : Layout) where
  front : List Piece
  last : Piece
  first : Piece
  back : List Piece
  pieces_left : l.pieces = front ++ [last]
  tail_left : l.tail = ""
  isWord_last : IsWord last.lexeme
  pieces_right : m.pieces = first :: back
  gap_first : first.gap = ""
  isWord_first : IsWord first.lexeme

/-- A lexeme that begins, or ends, with a byte of a word is a word. -/
theorem isWord_of_not_stops {p : Piece} (h : ¬ Stops Byte.isInner p.lexeme) : IsWord p.lexeme :=
  p.isLexeme.resolve_left fun hmark => h hmark.stops_isInner

theorem isWord_of_not_starts {p : Piece} (h : ¬ Starts Byte.isInner p.lexeme) : IsWord p.lexeme :=
  p.isLexeme.resolve_left fun hmark => h hmark.starts_isInner

theorem exists_last_word {l : Layout} (h : ¬ Starts Byte.isInner l.text) :
    ∃ ps p, l.pieces = ps ++ [p] ∧ l.tail = "" ∧ IsWord p.lexeme := by
  have htail : l.tail = "" := by
    by_contra hne
    apply h
    rw [text, write_eq_append]
    exact starts_append hne (starts_of_isGap l.isGap_tail) _
  rcases List.eq_nil_or_concat' l.pieces with hnil | ⟨ps, p, hpieces⟩
  · -- Without a lexeme the source is empty.
    refine absurd ?_ h
    rw [text, hnil, htail]
    exact starts_empty _
  · refine ⟨ps, p, hpieces, htail, isWord_of_not_starts fun hstarts => h ?_⟩
    rw [text_eq_of_pieces hpieces, htail]
    simpa using starts_append p.isLexeme.ne_empty hstarts (write ps p.gap)

theorem exists_first_word {m : Layout} (h : ¬ Stops Byte.isInner m.text) :
    ∃ q qs, m.pieces = q :: qs ∧ q.gap = "" ∧ IsWord q.lexeme := by
  cases hpieces : m.pieces with
  | nil =>
      refine absurd ?_ h
      rw [text, hpieces]
      exact stops_of_isGap m.isGap_tail
  | cons q qs =>
      have htext : m.text = q.gap ++ (q.lexeme ++ write qs m.tail) := by
        rw [text, hpieces, write]
      have hgap : q.gap = "" := by
        by_contra hne
        apply h
        rw [htext]
        exact stops_append hne (stops_of_isGap q.isGap) _
      refine ⟨q, qs, rfl, hgap, isWord_of_not_stops fun hstops => h ?_⟩
      rw [htext, hgap, String.empty_append]
      exact stops_append q.isLexeme.ne_empty hstops _

theorem exists_seam {l m : Layout} (hl : ¬ Starts Byte.isInner l.text)
    (hm : ¬ Stops Byte.isInner m.text) : Nonempty (Seam l m) := by
  rcases exists_last_word hl with ⟨ps, p, hps, htail, hp⟩
  rcases exists_first_word hm with ⟨q, qs, hqs, hgap, hq⟩
  exact ⟨⟨ps, p, q, qs, hps, htail, hp, hqs, hgap, hq⟩⟩

namespace Seam

variable {l m : Layout}

/-! ## The layout of both sources -/

def word (s : Seam l m) : Piece :=
  ⟨s.last.gap, s.last.lexeme ++ s.first.lexeme, s.last.isGap,
    Or.inr (s.isWord_last.append s.isWord_first)⟩

/-- The word is as far from its neighbours as its two parts are from theirs. -/
theorem isChain_word (s : Seam l m) : (s.front ++ s.word :: s.back).IsChain Piece.Apart := by
  have hleft : (s.front ++ [s.last]).IsChain Piece.Apart := s.pieces_left ▸ l.apart
  have hright : (s.first :: s.back).IsChain Piece.Apart := s.pieces_right ▸ m.apart
  rcases List.isChain_append.1 hleft with ⟨hfront, -, hlast⟩
  refine List.isChain_append.2 ⟨hfront, ?_, ?_⟩
  · cases hback : s.back with
    | nil => exact List.isChain_singleton _
    | cons r rs =>
        rw [hback] at hright
        rcases List.isChain_cons_cons.1 hright with ⟨hfirst, hrest⟩
        exact List.isChain_cons_cons.2 ⟨fun _ => hfirst s.isWord_first, hrest⟩
  · intro r hr w hw
    have hword : s.word = w := by simpa using hw
    subst hword
    exact fun hrword _ => hlast r hr s.last (by simp) hrword s.isWord_last

def layout (s : Seam l m) : Layout where
  pieces := s.front ++ s.word :: s.back
  tail := m.tail
  apart := s.isChain_word
  isGap_tail := m.isGap_tail

theorem text_left (s : Seam l m) : l.text = write s.front s.last.gap ++ s.last.lexeme := by
  simp [text_eq_of_pieces s.pieces_left, s.tail_left]

theorem text_right (s : Seam l m) : m.text = s.first.lexeme ++ write s.back m.tail := by
  simp [text, s.pieces_right, s.gap_first]

theorem text_layout (s : Seam l m) : s.layout.text = l.text ++ m.text := by
  have hword : s.layout.text = write s.front s.word.gap ++
      (s.word.lexeme ++ write s.back m.tail) := write_append_cons _ _ _ _
  rw [hword, s.text_left, s.text_right]
  simp [word]

/-! ## Places -/

/-- The line of the word that `l` ends in. -/
def line (s : Seam l m) : LineNumber :=
  lineFrom LineNumber.first s.front s.last.gap

def placedFront (s : Seam l m) : List Placed :=
  placedFrom "" LineNumber.first s.front

def placedBack (s : Seam l m) : List Placed :=
  placedFrom s.first.lexeme LineNumber.first s.back

theorem placed_left (s : Seam l m) :
    l.placed = s.placedFront ++ [⟨write s.front s.last.gap, s.last.lexeme, s.line⟩] := by
  rw [placed, s.pieces_left, placedFrom_append_cons, String.empty_append]
  rfl

theorem placed_right (s : Seam l m) :
    m.placed = ⟨"", s.first.lexeme, LineNumber.first⟩ :: s.placedBack := by
  simp [placed, s.pieces_right, s.gap_first, placedBack]

/-- A word holds no line end, so its line is the one that all of `l` leads to. -/
theorem line_eq_past (s : Seam l m) (h : newlines l.text ≤ UInt32.size - 2) :
    s.line = LineNumber.first.past l.text := by
  have hline : s.line.toNat = 1 + newlines (write s.front s.last.gap) :=
    counts_front h s.pieces_left
  have htext : newlines l.text = newlines (write s.front s.last.gap) := by
    simp [s.text_left]
  have hpast : (LineNumber.first.past l.text).toNat = 1 + newlines l.text :=
    LineNumber.counts_past_first h
  apply UInt32.toNat_inj.1
  rw [hline, hpast, htext]

theorem placed_layout (s : Seam l m) (h : newlines l.text ≤ UInt32.size - 2) :
    s.layout.placed = s.placedFront ++
      ⟨write s.front s.last.gap, s.last.lexeme ++ s.first.lexeme, s.line⟩ ::
        s.placedBack.map (Placed.behind l.text) := by
  have hbefore : write s.front s.last.gap ++ (s.last.lexeme ++ s.first.lexeme) =
      l.text ++ s.first.lexeme := by
    simp [s.text_left]
  have hback : placedFrom (write s.front s.last.gap ++ (s.last.lexeme ++ s.first.lexeme)) s.line
      s.back = s.placedBack.map (Placed.behind l.text) := by
    rw [hbefore, s.line_eq_past h, placedFrom_behind]
    rfl
  rw [← hback, placed, layout, placedFrom_append_cons, String.empty_append]
  rfl

theorem lastLine_layout (s : Seam l m) (h : newlines l.text ≤ UInt32.size - 2) :
    s.layout.lastLine = m.lastLine.past l.text := by
  have hright : m.lastLine = lineFrom LineNumber.first s.back m.tail := by
    simp [lastLine, s.pieces_right, s.gap_first]
  calc
    s.layout.lastLine = lineFrom s.line s.back m.tail := lineFrom_append_cons _ _ _ _ _
    _ = m.lastLine.past l.text := by
          rw [s.line_eq_past h, lineFrom_behind, hright]

/-! ## Tokens -/

def lastToken (s : Seam l m) : Token :=
  ⟨kind s.last.lexeme, s.last.lexeme, s.line⟩

def firstToken (s : Seam l m) : Token :=
  ⟨kind s.first.lexeme, s.first.lexeme, LineNumber.first⟩

def tokensFront (s : Seam l m) : List Token :=
  s.placedFront.map Placed.token

def tokensBack (s : Seam l m) : List Token :=
  s.placedBack.map Placed.token ++ [Token.endOfInput m.lastLine]

theorem tokens_left (s : Seam l m) : (l.lexed .errorToken).tokens =
    s.tokensFront ++ [s.lastToken, Token.endOfInput l.lastLine] := by
  simp [lexed, s.placed_left, tokensFront, lastToken, Placed.token]

theorem tokens_right (s : Seam l m) :
    (m.lexed .errorToken).tokens = s.firstToken :: s.tokensBack := by
  simp [lexed, s.placed_right, tokensBack, firstToken, Placed.token]

theorem tokens_layout (s : Seam l m) (h : newlines l.text ≤ UInt32.size - 2) :
    (s.layout.lexed .errorToken).tokens = s.tokensFront ++
      ⟨(classify (s.last.lexeme ++ s.first.lexeme)).getD .error,
        s.last.lexeme ++ s.first.lexeme, s.line⟩ :: s.tokensBack.map (Token.behind l.text) := by
  have hkind : kind (s.last.lexeme ++ s.first.lexeme) =
      (classify (s.last.lexeme ++ s.first.lexeme)).getD .error := by
    rw [kind, (s.isWord_last.append s.isWord_first).kind?_eq]
  have hback : (s.placedBack.map (Placed.behind l.text)).map Placed.token =
      (s.placedBack.map Placed.token).map (Token.behind l.text) := by
    simpa using
      Placed.tokens_map_behind l.text .errorToken s.placedBack
  have hend : Token.endOfInput (m.lastLine.past l.text) =
      (Token.endOfInput m.lastLine).behind l.text := rfl
  simp only [lexed, Placed.tokens_errorToken, s.placed_layout h, s.lastLine_layout h,
    List.map_append, List.map_cons, hback, hend]
  simp [tokensFront, tokensBack, Placed.token, hkind]

/-! ## Diagnostics -/

theorem diagnostics_left (s : Seam l m) (policy : Policy) : (l.lexed policy).diagnostics =
    Placed.diagnostics s.placedFront ++ Diagnostic.ofWord s.last.lexeme s.line
      (write s.front s.last.gap).utf8ByteSize l.text.utf8ByteSize := by
  rw [lexed, s.placed_left, Placed.diagnostics_append,
    Placed.diagnostics_of_isWord s.isWord_last, ← s.text_left]

theorem diagnostics_right (s : Seam l m) (policy : Policy) : (m.lexed policy).diagnostics =
    Diagnostic.ofWord s.first.lexeme LineNumber.first 0 s.first.lexeme.utf8ByteSize ++
      Placed.diagnostics s.placedBack := by
  rw [lexed, s.placed_right, ← List.singleton_append, Placed.diagnostics_append,
    Placed.diagnostics_of_isWord s.isWord_first, String.empty_append]
  rfl

theorem diagnostics_layout (s : Seam l m) (policy : Policy)
    (h : newlines l.text ≤ UInt32.size - 2) : (s.layout.lexed policy).diagnostics =
      Placed.diagnostics s.placedFront ++
        Diagnostic.ofWord (s.last.lexeme ++ s.first.lexeme) s.line
          (write s.front s.last.gap).utf8ByteSize
          (l.text.utf8ByteSize + s.first.lexeme.utf8ByteSize) ++
        (Placed.diagnostics s.placedBack).map (Diagnostic.behind l.text) := by
  have hstop : (write s.front s.last.gap ++ (s.last.lexeme ++ s.first.lexeme)).utf8ByteSize =
      l.text.utf8ByteSize + s.first.lexeme.utf8ByteSize := by
    simp [s.text_left, Nat.add_assoc]
  rw [lexed, s.placed_layout h, ← List.singleton_append, Placed.diagnostics_append,
    Placed.diagnostics_append, Placed.diagnostics_map_behind,
    Placed.diagnostics_of_isWord (s.isWord_last.append s.isWord_first), hstop, List.append_assoc]

/-! ## Lines of the second source -/

/-- What is found behind the first word of `m` is found in `m`, and its line fits behind `l`. -/
theorem toNat_line_behind_of_mem_tokensBack (s : Seam l m)
    (h : newlines (l.text ++ m.text) ≤ UInt32.size - 2) {u : Token} (hu : u ∈ s.tokensBack) :
    (u.behind l.text).line.toNat = u.line.toNat + newlines l.text := by
  have hm : newlines m.text ≤ UInt32.size - 2 := newlines_le_of_append_right h
  have hmem : u ∈ (m.lexed .errorToken).tokens := by
    rw [s.tokens_right]
    exact List.mem_cons_of_mem _ hu
  exact toNat_past_text h (toNat_line_le_of_mem_tokens hmem hm)

theorem toNat_line_behind_of_mem_diagnostics (s : Seam l m)
    (h : newlines (l.text ++ m.text) ≤ UInt32.size - 2) {d : Diagnostic}
    (hd : d ∈ Placed.diagnostics s.placedBack) :
    (d.behind l.text).line.toNat = d.line.toNat + newlines l.text := by
  have hm : newlines m.text ≤ UInt32.size - 2 := newlines_le_of_append_right h
  have hmem : d ∈ Placed.diagnostics m.placed := by
    rw [s.placed_right, ← List.singleton_append, Placed.diagnostics_append]
    exact List.mem_append_right _ hd
  exact toNat_past_text h (toNat_line_le_of_mem_diagnostics hmem hm)

end Seam

end Layout

/-- Where the bytes on both sides of the place belong to words, the last word of the one source and
the first of the other are one word, which has its own kind and is known or unknown by itself.  All
other tokens and diagnostics are those of the two sources. -/
theorem lex_append_fused (s t : String) (hbound : newlines (s ++ t) ≤ UInt32.size - 2)
    (hs : ∃ b, (bytes s).getLast? = some b ∧ Byte.isBoundary b = false)
    (ht : ∃ b, (bytes t).head? = some b ∧ Byte.isBoundary b = false) :
    ∃ (front back : String) (a b : Token) (A B : List Token) (D E : List Diagnostic),
      (s = front ++ a.lexeme ∧ t = b.lexeme ++ back) ∧
      (∃ last, (lex s .errorToken).tokens = A ++ [a, Token.endOfInput last]) ∧
      ((lex t .errorToken).tokens = b :: B ∧ ∃ ts last, B = ts ++ [Token.endOfInput last]) ∧
      (lex (s ++ t) .errorToken).tokens =
        A ++ ⟨(classify (a.lexeme ++ b.lexeme)).getD .error, a.lexeme ++ b.lexeme, a.line⟩ ::
          B.map (Token.behind s) ∧
      (∀ policy,
        (lex s policy).diagnostics =
          D ++ Diagnostic.ofWord a.lexeme a.line front.utf8ByteSize s.utf8ByteSize ∧
        (lex t policy).diagnostics =
          Diagnostic.ofWord b.lexeme b.line 0 b.lexeme.utf8ByteSize ++ E ∧
        (lex (s ++ t) policy).diagnostics =
          D ++ Diagnostic.ofWord (a.lexeme ++ b.lexeme) a.line front.utf8ByteSize
            (s.utf8ByteSize + b.lexeme.utf8ByteSize) ++ E.map (Diagnostic.behind s)) ∧
      (∀ u ∈ B, (u.behind s).line.toNat = u.line.toNat + newlines s) ∧
      ∀ d ∈ E, (d.behind s).line.toNat = d.line.toNat + newlines s := by
  rcases Layout.exists_text_eq s with ⟨l, rfl⟩
  rcases Layout.exists_text_eq t with ⟨m, rfl⟩
  have hl : ¬ Starts Byte.isInner l.text := by
    rcases hs with ⟨b, hb, hinner⟩
    intro hstarts
    simpa [Byte.isInner, hinner] using hstarts b hb
  have hm : ¬ Stops Byte.isInner m.text := by
    rcases ht with ⟨b, hb, hinner⟩
    intro hstops
    simpa [Byte.isInner, hinner] using hstops b hb
  rcases Layout.exists_seam hl hm with ⟨seam⟩
  have hleft : newlines l.text ≤ UInt32.size - 2 := Layout.newlines_le_of_append hbound
  rw [← seam.text_layout]
  simp only [Layout.lex_text]
  refine ⟨write seam.front seam.last.gap, write seam.back m.tail, seam.lastToken, seam.firstToken,
    seam.tokensFront, seam.tokensBack, Placed.diagnostics seam.placedFront,
    Placed.diagnostics seam.placedBack, ⟨seam.text_left, seam.text_right⟩,
    ⟨l.lastLine, seam.tokens_left⟩, ⟨seam.tokens_right, _, _, rfl⟩, seam.tokens_layout hleft, ?_,
    fun _ => seam.toNat_line_behind_of_mem_tokensBack hbound,
    fun _ => seam.toNat_line_behind_of_mem_diagnostics hbound⟩
  intro policy
  exact ⟨seam.diagnostics_left policy, seam.diagnostics_right policy,
    seam.diagnostics_layout policy hleft⟩

/-- A number and a name are known, and what they make together is not. -/
theorem lex_append_fused_number_name :
    newlines ("x\n12" ++ "ab\n$") ≤ UInt32.size - 2 ∧
    (∃ b, (bytes "x\n12").getLast? = some b ∧ Byte.isBoundary b = false) ∧
    (∃ b, (bytes "ab\n$").head? = some b ∧ Byte.isBoundary b = false) ∧
    (lex ("x\n12" ++ "ab\n$") .errorToken).tokens =
      [⟨.identifier, "x", 1⟩, ⟨.error, "12ab", 2⟩, ⟨.error, "$", 3⟩, Token.endOfInput 3] := by
  have hbound : newlines ("x\n12" ++ "ab\n$") ≤ UInt32.size - 2 := by decide +kernel
  have hs : ∃ b, (bytes "x\n12").getLast? = some b ∧ Byte.isBoundary b = false :=
    ⟨50, by decide +kernel, by decide⟩
  have ht : ∃ b, (bytes "ab\n$").head? = some b ∧ Byte.isBoundary b = false :=
    ⟨97, by decide +kernel, by decide⟩
  rcases lex_append_fused "x\n12" "ab\n$" hbound hs ht with
    ⟨front, back, a, b, A, B, D, E, -, ⟨last, hleft⟩, ⟨hright, -⟩, htokens, -⟩
  have hx : (lex "x\n12" .errorToken).tokens =
      [⟨.identifier, "x", 1⟩] ++ [⟨.integer, "12", 2⟩, Token.endOfInput 2] := by decide +kernel
  have hab : (lex "ab\n$" .errorToken).tokens =
      ⟨.identifier, "ab", 1⟩ :: [⟨.error, "$", 2⟩, Token.endOfInput 2] := by decide +kernel
  -- The tokens of the two sources tell which tokens are put together.
  rcases List.append_inj' (hx.symm.trans hleft) rfl with ⟨rfl, hlast⟩
  obtain ⟨rfl, -⟩ := List.cons.inj hlast
  obtain ⟨rfl, rfl⟩ := List.cons.inj (hab.symm.trans hright)
  refine ⟨hbound, hs, ht, htokens.trans ?_⟩
  decide +kernel

end Rill
