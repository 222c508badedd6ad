import Rill.Proofs.Joined
import Rill.Proofs.Reading

/-!
# Spans — where the diagnostics of a source point

* `Lexeme.WordAt source i j` — a word stands from `i` up to `j`, said byte by byte and with no
  mention of how a source is read;
* `Lexeme.wordAt_append_iff` — the same, said of the three parts that `i` and `j` cut a source into;
* `Layout.span_mem_iff` — a span of a diagnostic is the place of a word that the language does not
  have, and each such place is a span;
* `lex_diagnostics_exact` — all there is to say about the places and texts of diagnostics.
-/

namespace Rill

open Utf8 Lexeme

/-! ## Bytes of three parts -/

namespace Utf8

variable {before text after : String} {p : UInt8 → Bool}

theorem byteAt?_size (before after : String) :
    byteAt? (before ++ after) before.utf8ByteSize = (bytes after).head? := by
  rw [byteAt?_eq_getElem?, bytes_append, ← length_bytes,
    List.getElem?_append_right (Nat.le_refl _), Nat.sub_self, List.head?_eq_getElem?]

theorem byteAt?_pred_size (hne : before ≠ "") (after : String) :
    byteAt? (before ++ after) (before.utf8ByteSize - 1) = (bytes before).getLast? := by
  have hpos : 0 < (bytes before).length :=
    List.length_pos_iff.2 fun hnil => hne (bytes_eq_nil_iff.1 hnil)
  rw [byteAt?_eq_getElem?, bytes_append, ← length_bytes,
    List.getElem?_append_left (by omega), List.getLast?_eq_getElem?]

theorem stops_iff_byteAt? (before : String) :
    Stops p after ↔ before.utf8ByteSize = (before ++ after).utf8ByteSize ∨
      ∃ b, byteAt? (before ++ after) before.utf8ByteSize = some b ∧ p b = false := by
  rw [stops_iff, byteAt?_size, ← String.utf8ByteSize_eq_zero_iff, String.utf8ByteSize_append]
  simp

theorem starts_iff_byteAt? (after : String) :
    Starts p before ↔ before.utf8ByteSize = 0 ∨
      ∃ b, byteAt? (before ++ after) (before.utf8ByteSize - 1) = some b ∧ p b = false := by
  rw [starts_iff, String.utf8ByteSize_eq_zero_iff]
  by_cases hne : before = ""
  · simp [hne]
  · simp [hne, byteAt?_pred_size hne]

/-- The bytes of the middle part are those between the two offsets. -/
theorem mem_bytes_iff (before text after : String) {b : UInt8} :
    b ∈ bytes text ↔ ∃ k, before.utf8ByteSize ≤ k ∧ k < (before ++ text).utf8ByteSize ∧
      byteAt? (before ++ (text ++ after)) k = some b := by
  have hget : ∀ k, k < (bytes text).length →
      byteAt? (before ++ (text ++ after)) (before.utf8ByteSize + k) = (bytes text)[k]? := by
    intro k hk
    rw [byteAt?_eq_getElem?, bytes_append, bytes_append, ← length_bytes,
      List.getElem?_append_right (Nat.le_add_right _ _), Nat.add_sub_cancel_left,
      List.getElem?_append_left hk]
  rw [String.utf8ByteSize_append, ← length_bytes text]
  constructor
  · intro hb
    rcases List.mem_iff_getElem?.1 hb with ⟨k, hk⟩
    have hlt : k < (bytes text).length := (List.getElem?_eq_some_iff.1 hk).1
    exact ⟨before.utf8ByteSize + k, by omega, by omega, (hget k hlt).trans hk⟩
  · rintro ⟨k, hle, hlt, hk⟩
    obtain ⟨n, rfl⟩ := Nat.exists_eq_add_of_le hle
    exact List.mem_iff_getElem?.2 ⟨n, (hget n (by omega)).symm.trans hk⟩

end Utf8

/-! ## Words in their places -/

namespace Lexeme

/-- From `i` up to `j` stand bytes of a word, and on either side there are no more of them. -/
structure WordAt (source : String) (i j : Nat) : Prop where
  lt : i < j
  le_size : j ≤ source.utf8ByteSize
  inside : ∀ k b, i ≤ k → k < j → byteAt? source k = some b → Byte.isBoundary b = false
  first : i = 0 ∨ ∃ b, byteAt? source (i - 1) = some b ∧ Byte.isBoundary b = true
  last : j = source.utf8ByteSize ∨ ∃ b, byteAt? source j = some b ∧ Byte.isBoundary b = true

/-- The three parts are what the two offsets cut the source into. -/
theorem wordAt_append_iff {before x after : String} :
    WordAt (before ++ (x ++ after)) before.utf8ByteSize (before ++ x).utf8ByteSize ↔
      IsWord x ∧ Starts Byte.isInner before ∧ Stops Byte.isInner after := by
  have hlast : Stops Byte.isInner after ↔ _ := stops_iff_byteAt? (before ++ x)
  rw [String.append_assoc] at hlast
  rw [starts_iff_byteAt? (x ++ after), hlast]
  simp only [Byte.isInner_eq_false_iff]
  constructor
  · intro h
    refine ⟨⟨?_, ?_⟩, h.first, h.last⟩
    · rintro rfl
      exact absurd h.lt (by simp)
    · intro b hb
      rcases (mem_bytes_iff before x after).1 hb with ⟨k, hle, hlt, hk⟩
      simp [Byte.isInner, h.inside k b hle hlt hk]
  · rintro ⟨⟨hne, hx⟩, hfirst, hlast⟩
    have hpos : x.utf8ByteSize ≠ 0 := by simpa using hne
    refine ⟨?_, ?_, ?_, hfirst, hlast⟩
    · rw [String.utf8ByteSize_append]
      omega
    · simp [String.utf8ByteSize_append]
    · intro k b hle hlt hk
      simpa [Byte.isInner] using hx b ((mem_bytes_iff before x after).2 ⟨k, hle, hlt, hk⟩)

namespace WordAt

variable {source : String} {i j : Nat}

/-- A word begins behind an ASCII byte, or where the source begins. -/
theorem isCharBoundary_start (h : WordAt source i j) : IsCharBoundary source i := by
  rcases h.first with rfl | ⟨b, hb, hboundary⟩
  · exact isCharBoundary_zero source
  · have hascii : b < 128 := Byte.lt_128_of_isBoundary hboundary
    have hpos : i ≠ 0 := by
      rintro rfl
      -- The byte in front would be the first byte of the word itself.
      have hinside := h.inside 0 b (Nat.le_refl 0) h.lt hb
      simp [hboundary] at hinside
    have hsucc := isCharBoundary_succ_of_ascii (isCharBoundary_of_ascii hb hascii) hb hascii
    rwa [Nat.sub_add_cancel (Nat.pos_of_ne_zero hpos)] at hsucc

/-- A word ends where an ASCII byte stands, or where the source ends. -/
theorem isCharBoundary_stop (h : WordAt source i j) : IsCharBoundary source j := by
  rcases h.last with rfl | ⟨b, hb, hboundary⟩
  · exact isCharBoundary_size source
  · exact isCharBoundary_of_ascii hb (Byte.lt_128_of_isBoundary hboundary)

theorem exists_append (h : WordAt source i j) :
    ∃ before x after, source = before ++ (x ++ after) ∧ i = before.utf8ByteSize ∧
      j = (before ++ x).utf8ByteSize :=
  exists_append_append h.isCharBoundary_start h.isCharBoundary_stop (Nat.le_of_lt h.lt)

/-- Of two words the one in front is over, and a byte more, where the other begins. -/
theorem stop_lt_start {k n : Nat} (h : WordAt source i j) (h' : WordAt source k n) (hik : i < k) :
    j < k := by
  rcases h'.first with rfl | ⟨b, hb, hboundary⟩
  · exact absurd hik (Nat.not_lt_zero i)
  · -- The byte in front of the second word does not belong to the first one.
    by_contra hjk
    have hinside := h.inside (k - 1) b (by omega) (by omega) hb
    simp [hboundary] at hinside

end WordAt

/-- A lexeme that the language does not have is a word that is none of its own. -/
theorem kind?_eq_none_iff {x : String} (hx : IsLexeme x) :
    kind? x = none ↔ IsWord x ∧ classify x = none := by
  constructor
  · intro h
    have hword : IsWord x := by
      refine hx.resolve_left ?_
      intro hmark
      rcases exists_mark?_eq_some hmark with ⟨_, _, _, _, hsome⟩
      simp [kind?, hsome] at h
    exact ⟨hword, by simpa [kind?, mark?_eq_none_of_isWord hword] using h⟩
  · rintro ⟨hword, hnone⟩
    simp [kind?, mark?_eq_none_of_isWord hword, hnone]

/-- What the language does not have, byte range by byte range. -/
def UnknownAt (source : String) (i j : Nat) : Prop :=
  WordAt source i j ∧ ∃ (hi : IsCharBoundary source i) (hj : IsCharBoundary source j),
    classify (cut source i j hi hj) = none

theorem unknownAt_append_iff {before x after : String} :
    UnknownAt (before ++ (x ++ after)) before.utf8ByteSize (before ++ x).utf8ByteSize ↔
      IsWord x ∧ Starts Byte.isInner before ∧ Stops Byte.isInner after ∧ classify x = none := by
  have hi := isCharBoundary_append before (x ++ after)
  have hj := isCharBoundary_append_append before x after
  rw [UnknownAt, wordAt_append_iff]
  constructor
  · rintro ⟨⟨hword, hstarts, hstops⟩, _, _, hnone⟩
    rw [cut_append] at hnone
    exact ⟨hword, hstarts, hstops, hnone⟩
  · rintro ⟨hword, hstarts, hstops, hnone⟩
    exact ⟨⟨hword, hstarts, hstops⟩, hi, hj, by rw [cut_append, hnone]⟩

end Lexeme

/-! ## Spans of a layout -/

namespace Layout

variable {l : Layout} {ps qs : List Piece} {p : Piece}

theorem unknownAt_of_pieces (h : l.pieces = ps ++ p :: qs) (hunknown : kind? p.lexeme = none) :
    UnknownAt l.text (write ps p.gap).utf8ByteSize (write ps p.gap ++ p.lexeme).utf8ByteSize := by
  rcases (kind?_eq_none_iff p.isLexeme).1 hunknown with ⟨hword, hnone⟩
  have hchain : (ps ++ p :: qs).IsChain Piece.Apart := h ▸ l.apart
  have hfront : (ps ++ [p]).IsChain Piece.Apart := by
    rw [List.append_cons] at hchain
    exact (List.isChain_append.1 hchain).1
  have hback : (p :: qs).IsChain Piece.Apart := (List.isChain_append.1 hchain).2.1
  rw [text_eq_of_pieces h]
  exact unknownAt_append_iff.2
    ⟨hword, starts_write hfront hword, stops_write hback l.isGap_tail hword, hnone⟩

theorem exists_pieces_of_unknownAt {i j : Nat} (h : UnknownAt l.text i j) :
    ∃ ps p qs, l.pieces = ps ++ p :: qs ∧ kind? p.lexeme = none ∧
      i = (write ps p.gap).utf8ByteSize ∧ j = (write ps p.gap ++ p.lexeme).utf8ByteSize := by
  rcases h.1.exists_append with ⟨before, x, after, htext, rfl, rfl⟩
  rw [htext] at h
  rcases unknownAt_append_iff.1 h with ⟨hword, hstarts, hstops, hnone⟩
  rcases exists_pieces_eq htext (Or.inr ⟨hword, hstops⟩) (Or.inl hstarts) with
    ⟨ps, p, qs, hpieces, rfl, rfl⟩
  exact ⟨ps, p, qs, hpieces, (kind?_eq_none_iff p.isLexeme).2 ⟨hword, hnone⟩, rfl, rfl⟩

/-- The diagnostics of a layout are about the lexemes that the language does not have. -/
theorem mem_diagnostics_iff {d : Diagnostic} :
    d ∈ Placed.diagnostics l.placed ↔ ∃ ps p qs, l.pieces = ps ++ p :: qs ∧
      kind? p.lexeme = none ∧
      Placed.diagnostic ⟨write ps p.gap, p.lexeme, lineFrom LineNumber.first ps p.gap⟩ = d := by
  simp only [Placed.diagnostics, List.mem_map, List.mem_filter]
  constructor
  · rintro ⟨q, ⟨hq, hunknown⟩, rfl⟩
    rcases mem_placed_iff.1 hq with ⟨ps, p, qs, hpieces, rfl⟩
    exact ⟨ps, p, qs, hpieces, by simpa [Placed.isUnknown] using hunknown, rfl⟩
  · rintro ⟨ps, p, qs, hpieces, hnone, rfl⟩
    exact ⟨_, ⟨mem_placed_iff.2 ⟨ps, p, qs, hpieces, rfl⟩, by simp [Placed.isUnknown, hnone]⟩, rfl⟩

theorem span_mem_iff {i j : Nat} :
    ⟨i, j⟩ ∈ (Placed.diagnostics l.placed).map Diagnostic.span ↔ UnknownAt l.text i j := by
  rw [List.mem_map]
  constructor
  · rintro ⟨d, hd, hspan⟩
    rcases mem_diagnostics_iff.1 hd with ⟨ps, p, qs, hpieces, hnone, rfl⟩
    cases hspan
    exact unknownAt_of_pieces hpieces hnone
  · intro h
    rcases exists_pieces_of_unknownAt h with ⟨ps, p, qs, hpieces, hnone, rfl, rfl⟩
    exact ⟨_, mem_diagnostics_iff.2 ⟨ps, p, qs, hpieces, hnone, rfl⟩, rfl⟩

/-- Each lexeme stands behind the one before. -/
theorem pairwise_placedFrom (before : String) (line : LineNumber) (ps : List Piece) :
    (placedFrom before line ps).Pairwise
      fun p q => p.before.utf8ByteSize < q.before.utf8ByteSize := by
  induction ps generalizing before line with
  | nil => exact List.Pairwise.nil
  | cons p ps ih =>
      refine List.pairwise_cons.2 ⟨?_, ih _ _⟩
      intro q hq
      rcases exists_of_mem_placedFrom hq with ⟨rs, r, qs, -, rfl⟩
      have hpos : p.lexeme.utf8ByteSize ≠ 0 := by simpa using p.isLexeme.ne_empty
      simp only [String.utf8ByteSize_append]
      omega

theorem pairwise_spans (l : Layout) :
    ((Placed.diagnostics l.placed).map Diagnostic.span).Pairwise fun a b => a.stop < b.start := by
  -- They come in order, as lexemes do; and words do not touch.
  have hstart : ((Placed.diagnostics l.placed).map Diagnostic.span).Pairwise
      fun a b => a.start < b.start := by
    simp only [Placed.diagnostics, List.map_map, List.pairwise_map]
    exact (pairwise_placedFrom "" LineNumber.first l.pieces).filter _
  refine hstart.imp_of_mem ?_
  intro a b ha hb hlt
  exact (span_mem_iff.1 ha).1.stop_lt_start (span_mem_iff.1 hb).1 hlt

/-- The text of a diagnostic is what stands at its span, all of it and not empty. -/
theorem text_of_mem_diagnostics {d : Diagnostic} (h : d ∈ Placed.diagnostics l.placed) :
    (∃ (hi : IsCharBoundary l.text d.span.start) (hj : IsCharBoundary l.text d.span.stop),
      d.text = cut l.text d.span.start d.span.stop hi hj) ∧
    d.span.size? = some d.text.utf8ByteSize ∧ 0 < d.text.utf8ByteSize := by
  rcases mem_diagnostics_iff.1 h with ⟨ps, p, qs, hpieces, -, rfl⟩
  refine ⟨?_, ?_, ?_⟩
  · rw [text_eq_of_pieces hpieces]
    exact ⟨isCharBoundary_append _ _, isCharBoundary_append_append _ _ _, (cut_append _ _).symm⟩
  · simp [Placed.diagnostic, Span.size?]
  · simpa [Placed.diagnostic, Nat.pos_iff_ne_zero] using p.isLexeme.ne_empty

end Layout

/-- The spans of the diagnostics are the places of all words that the language does not have, each
once and in order, with at least a byte between any two.  A diagnostic tells the text at its place,
and its span is as long as this text. -/
theorem lex_diagnostics_exact (source : String) (policy : Policy) :
    ((lex source policy).diagnostics.map Diagnostic.span).Pairwise (fun a b => a.stop < b.start) ∧
    (∀ i j, (⟨i, j⟩ : Span) ∈ (lex source policy).diagnostics.map Diagnostic.span ↔
      WordAt source i j ∧ ∃ (hi : IsCharBoundary source i) (hj : IsCharBoundary source j),
        classify (cut source i j hi hj) = none) ∧
    (∀ i j, WordAt source i j → IsCharBoundary source i ∧ IsCharBoundary source j) ∧
    ∀ d ∈ (lex source policy).diagnostics,
      (∃ (hi : IsCharBoundary source d.span.start) (hj : IsCharBoundary source d.span.stop),
        d.text = cut source d.span.start d.span.stop hi hj) ∧
      d.span.size? = some d.text.utf8ByteSize ∧ 0 < d.text.utf8ByteSize := by
  rcases Layout.exists_text_eq source with ⟨l, rfl⟩
  simp only [Layout.lex_text, Layout.lexed]
  refine ⟨Layout.pairwise_spans l, fun i j => Layout.span_mem_iff, ?_, ?_⟩
  · intro i j h
    exact ⟨h.isCharBoundary_start, h.isCharBoundary_stop⟩
  · intro d hd
    exact Layout.text_of_mem_diagnostics hd

end Rill
