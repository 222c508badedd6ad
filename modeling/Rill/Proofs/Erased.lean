import Rill.Proofs.Concatenation

/-!
# Erased — a source without the words that the language does not have

To drop a word is as good as not to have it in the source: the gaps on either side become one, in
which the lines of both are counted.

* `Utf8.erase spans text` — the bytes of `text` that no span covers;
* `Layout.known` — a layout without the lexemes that the language does not have: `text_known` says
  what is left of its text, and `bytes_writeKnown` that this is what the spans of the diagnostics
  leave;
* `Layout.tokens_known`, `Layout.lastLine_known` — it has the same tokens, in the same lines;
* `lex_erase_unknown` — lexing what is left of a source.
-/

namespace Rill

open Utf8 Lexeme

/-! ## Bytes that no span covers -/

namespace Utf8

def covered (spans : List Span) (i : Nat) : Bool :=
  spans.any fun s => s.start ≤ i && i < s.stop

/-- What the spans leave of bytes that stand from the offset `i` on. -/
def eraseFrom (spans : List Span) : Nat → List UInt8 → List UInt8
  | _, [] => []
  | i, b :: bs =>
      if covered spans i then eraseFrom spans (i + 1) bs
      else b :: eraseFrom spans (i + 1) bs

def erase (spans : List Span) (text : String) : List UInt8 :=
  eraseFrom spans 0 (bytes text)

variable {spans : List Span} {i : Nat} {bs : List UInt8}

theorem covered_eq_true_iff :
    covered spans i = true ↔ ∃ s ∈ spans, s.start ≤ i ∧ i < s.stop := by
  simp [covered]

theorem eraseFrom_append (spans : List Span) (i : Nat) (as bs : List UInt8) :
    eraseFrom spans i (as ++ bs) = eraseFrom spans i as ++ eraseFrom spans (i + as.length) bs := by
  induction as generalizing i with
  | nil => rfl
  | cons a as ih =>
      have hlen : i + 1 + as.length = i + (a :: as).length := by
        rw [List.length_cons]
        omega
      simp only [List.cons_append, eraseFrom, ih, hlen]
      split
      · rfl
      · rw [List.cons_append]

/-- Spans that begin behind the bytes leave all of them. -/
theorem eraseFrom_eq_self (h : ∀ s ∈ spans, i + bs.length ≤ s.start) :
    eraseFrom spans i bs = bs := by
  induction bs generalizing i with
  | nil => rfl
  | cons b bs ih =>
      rw [List.length_cons] at h
      have hfree : ¬ covered spans i = true := by
        intro hcovered
        rcases covered_eq_true_iff.1 hcovered with ⟨s, hs, hstart, -⟩
        have hbehind := h s hs
        omega
      have hrest : ∀ s ∈ spans, i + 1 + bs.length ≤ s.start := by
        intro s hs
        have hbehind := h s hs
        omega
      rw [eraseFrom, if_neg hfree, ih hrest]

/-- A span that covers the bytes leaves none. -/
theorem eraseFrom_eq_nil {s : Span} (hs : s ∈ spans) (hstart : s.start ≤ i)
    (hstop : i + bs.length ≤ s.stop) : eraseFrom spans i bs = [] := by
  induction bs generalizing i with
  | nil => rfl
  | cons b bs ih =>
      rw [List.length_cons] at hstop
      have hcovered : covered spans i = true :=
        covered_eq_true_iff.2 ⟨s, hs, hstart, by omega⟩
      rw [eraseFrom, if_pos hcovered]
      exact ih (by omega) (by omega)

/-- A span that is over where the bytes begin has nothing to do with them. -/
theorem eraseFrom_cons_of_le {s : Span} (h : s.stop ≤ i) :
    eraseFrom (s :: spans) i bs = eraseFrom spans i bs := by
  induction bs generalizing i with
  | nil => rfl
  | cons b bs ih =>
      have hcovered : covered (s :: spans) i = covered spans i := by
        simp [covered, Nat.not_lt_of_le h]
      simp only [eraseFrom, hcovered, ih (Nat.le_succ_of_le h)]

end Utf8

/-! ## One lexeme more -/

namespace Placed

variable {q : Placed} {qs : List Placed}

theorem tokens_drop_cons_of_isUnknown (h : q.isUnknown = true) :
    tokens .drop (q :: qs) = tokens .drop qs := by
  simp [tokens, hasToken, h]

theorem tokens_drop_cons_of_not_isUnknown (h : ¬ q.isUnknown = true) :
    tokens .drop (q :: qs) = q.token :: tokens .drop qs := by
  simp [tokens, hasToken, h]

theorem diagnostics_cons_of_isUnknown (h : q.isUnknown = true) :
    diagnostics (q :: qs) = q.diagnostic :: diagnostics qs := by
  simp [diagnostics, h]

theorem diagnostics_cons_of_not_isUnknown (h : ¬ q.isUnknown = true) :
    diagnostics (q :: qs) = diagnostics qs := by
  simp [diagnostics, h]

end Placed

namespace Layout

/-! ## What is left of a text -/

def Piece.isUnknown (p : Piece) : Bool :=
  (kind? p.lexeme).isNone

/-- A layout written without the lexemes that the language does not have. -/
def writeKnown : List Piece → String → String
  | [], tail => tail
  | p :: ps, tail =>
      p.gap ++ ((if p.isUnknown then "" else p.lexeme) ++ writeKnown ps tail)

@[simp]
theorem newlines_writeKnown (ps : List Piece) (tail : String) :
    newlines (writeKnown ps tail) = newlines (write ps tail) := by
  induction ps with
  | nil => rfl
  | cons p ps ih =>
      -- Gone or not, the lexeme has no line end.
      unfold writeKnown
      split <;> simp [ih]

/-- The places of the words that the language does not have. -/
def spansFrom (before : String) (line : LineNumber) (ps : List Piece) : List Span :=
  (Placed.diagnostics (placedFrom before line ps)).map Diagnostic.span

variable {before tail : String} {line : LineNumber} {p : Piece} {ps : List Piece}

theorem spansFrom_cons_of_isUnknown (h : p.isUnknown = true) :
    spansFrom before line (p :: ps) =
      ⟨(before ++ p.gap).utf8ByteSize, (before ++ p.gap ++ p.lexeme).utf8ByteSize⟩ ::
        spansFrom (before ++ p.gap ++ p.lexeme) (line.past p.gap) ps := by
  have hplaced : (⟨before ++ p.gap, p.lexeme, line.past p.gap⟩ : Placed).isUnknown = true := h
  rw [spansFrom, placedFrom, Placed.diagnostics_cons_of_isUnknown hplaced]
  rfl

theorem spansFrom_cons_of_not_isUnknown (h : ¬ p.isUnknown = true) :
    spansFrom before line (p :: ps) =
      spansFrom (before ++ p.gap ++ p.lexeme) (line.past p.gap) ps := by
  have hplaced : ¬ (⟨before ++ p.gap, p.lexeme, line.past p.gap⟩ : Placed).isUnknown = true := h
  rw [spansFrom, placedFrom, Placed.diagnostics_cons_of_not_isUnknown hplaced]
  rfl

theorem le_start_of_mem_spansFrom {s : Span} (h : s ∈ spansFrom before line ps) :
    before.utf8ByteSize ≤ s.start := by
  rcases List.mem_map.1 h with ⟨d, hd, rfl⟩
  rcases List.mem_map.1 hd with ⟨q, hq, rfl⟩
  rcases exists_of_mem_placedFrom (List.mem_of_mem_filter hq) with ⟨rs, r, qs, _, rfl⟩
  simp [Placed.diagnostic]

theorem eraseFrom_bytes_append (spans : List Span) (before s t : String) :
    eraseFrom spans before.utf8ByteSize (bytes (s ++ t)) =
      eraseFrom spans before.utf8ByteSize (bytes s) ++
        eraseFrom spans (before ++ s).utf8ByteSize (bytes t) := by
  rw [bytes_append, eraseFrom_append, length_bytes, String.utf8ByteSize_append]

/-- Bytes in front of all that is erased are left. -/
theorem eraseFrom_bytes_eq_self {spans : List Span} {before s : String}
    (h : ∀ t ∈ spans, (before ++ s).utf8ByteSize ≤ t.start) :
    eraseFrom spans before.utf8ByteSize (bytes s) = bytes s := by
  refine eraseFrom_eq_self ?_
  rw [length_bytes, ← String.utf8ByteSize_append]
  exact h

theorem bytes_writeKnown (before : String) (line : LineNumber) (ps : List Piece) (tail : String) :
    bytes (writeKnown ps tail) =
      eraseFrom (spansFrom before line ps) before.utf8ByteSize (bytes (write ps tail)) := by
  induction ps generalizing before line with
  | nil => exact (eraseFrom_eq_self (by simp [spansFrom, Placed.diagnostics])).symm
  | cons p ps ih =>
      have hle : (before ++ p.gap).utf8ByteSize ≤ (before ++ p.gap ++ p.lexeme).utf8ByteSize := by
        simp
      have hbehind : ∀ s ∈ spansFrom (before ++ p.gap ++ p.lexeme) (line.past p.gap) ps,
          (before ++ p.gap ++ p.lexeme).utf8ByteSize ≤ s.start := fun _ =>
        le_start_of_mem_spansFrom
      have hgap : ∀ s ∈ spansFrom (before ++ p.gap ++ p.lexeme) (line.past p.gap) ps,
          (before ++ p.gap).utf8ByteSize ≤ s.start := fun s hs => hle.trans (hbehind s hs)
      -- The gap stays; the lexeme goes if a span begins with it; the rest is erased by itself.
      rw [writeKnown, write, eraseFrom_bytes_append, eraseFrom_bytes_append, bytes_append,
        bytes_append, ih (before ++ p.gap ++ p.lexeme) (line.past p.gap)]
      by_cases hunknown : p.isUnknown = true
      · have hgone : eraseFrom (spansFrom before line (p :: ps)) (before ++ p.gap).utf8ByteSize
            (bytes p.lexeme) = [] := by
          rw [spansFrom_cons_of_isUnknown hunknown]
          exact eraseFrom_eq_nil List.mem_cons_self (Nat.le_refl _) (by simp [Nat.add_assoc])
        rw [hgone, spansFrom_cons_of_isUnknown hunknown,
          eraseFrom_bytes_eq_self (List.forall_mem_cons.2 ⟨Nat.le_refl _, hgap⟩),
          eraseFrom_cons_of_le (Nat.le_refl _), if_pos hunknown, bytes_empty]
      · rw [spansFrom_cons_of_not_isUnknown hunknown, eraseFrom_bytes_eq_self hgap,
          eraseFrom_bytes_eq_self hbehind, if_neg hunknown]

/-! ## What is left of a layout -/

theorem not_isUnknown_of_isMark (h : IsMark p.lexeme) : ¬ p.isUnknown = true := by
  rcases exists_mark?_eq_some h with ⟨_, _, _, _, hmark⟩
  simp [Piece.isUnknown, kind?, hmark]

/-- What is left behind a word does not go on with it: marks stay, and so does the gap in front of a
word that goes. -/
theorem stops_writeKnown (hps : (p :: ps).IsChain Piece.Apart) (htail : IsGap tail)
    (hp : IsWord p.lexeme) : Stops Byte.isInner (writeKnown ps tail) := by
  cases ps with
  | nil => exact stops_of_isGap htail
  | cons q qs =>
      refine stops_gap_append (List.isChain_cons_cons.1 hps).1 hp fun hmark => ?_
      rw [if_neg (not_isUnknown_of_isMark hmark)]
      exact stops_append hmark.ne_empty hmark.stops_isInner _

theorem ends_writeKnown (hps : (p :: ps).IsChain Piece.Apart) (htail : IsGap tail) :
    Ends p.lexeme (writeKnown ps tail) :=
  p.isLexeme.imp_right fun hword => ⟨hword, stops_writeKnown hps htail hword⟩

/-- The gap of a lexeme that goes is put in front of the rest. -/
def knownFrom : (ps : List Piece) → (tail : String) → ps.IsChain Piece.Apart → IsGap tail →
    { l : Layout // l.text = writeKnown ps tail }
  | [], tail, _, htail => ⟨⟨[], tail, List.isChain_nil, htail⟩, rfl⟩
  | p :: ps, tail, hps, htail =>
      let rest := knownFrom ps tail hps.tail htail
      if h : p.isUnknown then
        ⟨rest.1.indent p.isGap, by
          rw [text_indent, rest.2, writeKnown, if_pos h, String.empty_append]⟩
      else
        ⟨rest.1.cons p (by rw [rest.2]; exact ends_writeKnown hps htail), by
          rw [text_cons, rest.2, writeKnown, if_neg h]⟩

def known (l : Layout) : Layout :=
  (knownFrom l.pieces l.tail l.apart l.isGap_tail).1

theorem text_known (l : Layout) : l.known.text = writeKnown l.pieces l.tail :=
  (knownFrom l.pieces l.tail l.apart l.isGap_tail).2

section

variable {hps : (p :: ps).IsChain Piece.Apart} {htail : IsGap tail}

theorem knownFrom_of_isUnknown (h : p.isUnknown = true) :
    (knownFrom (p :: ps) tail hps htail).1 =
      (knownFrom ps tail hps.tail htail).1.indent p.isGap := by
  simp only [knownFrom, dif_pos h]

theorem pieces_knownFrom_of_not_isUnknown (h : ¬ p.isUnknown = true) :
    (knownFrom (p :: ps) tail hps htail).1.pieces =
      p :: (knownFrom ps tail hps.tail htail).1.pieces := by
  simp only [knownFrom, dif_neg h]
  rfl

theorem tail_knownFrom_of_not_isUnknown (h : ¬ p.isUnknown = true) :
    (knownFrom (p :: ps) tail hps htail).1.tail = (knownFrom ps tail hps.tail htail).1.tail := by
  simp only [knownFrom, dif_neg h]
  rfl

end

/-! ## The tokens of what is left -/

/-- The lines that are left to count fit behind a piece, if they fit in front of it. -/
theorem fits_behind_piece (h : line.toNat + newlines (write (p :: ps) tail) < UInt32.size) :
    (line.past p.gap).toNat + newlines (write ps tail) < UInt32.size := by
  simp only [write, newlines_append, p.newlines_lexeme] at h
  rw [LineNumber.toNat_past (by omega)]
  omega

theorem fits_in_front_of_rest {rest : { l : Layout // l.text = writeKnown ps tail }}
    (h : line.toNat + newlines (write (p :: ps) tail) < UInt32.size) :
    line.toNat + newlines (p.gap ++ rest.1.text) < UInt32.size := by
  simpa [rest.2] using h

theorem tokens_knownFrom (before before' : String) (hps : ps.IsChain Piece.Apart)
    (htail : IsGap tail) (h : line.toNat + newlines (write ps tail) < UInt32.size) :
    (placedFrom before' line (knownFrom ps tail hps htail).1.pieces).map Placed.token =
      Placed.tokens .drop (placedFrom before line ps) := by
  induction ps generalizing before before' line with
  | nil => rfl
  | cons p ps ih =>
      have hfits := fits_behind_piece h
      by_cases hunknown : p.isUnknown = true
      · -- It has no token, and its gap is counted with the next one.
        have hplaced : (⟨before ++ p.gap, p.lexeme, line.past p.gap⟩ : Placed).isUnknown = true :=
          hunknown
        rw [knownFrom_of_isUnknown hunknown, placedFrom_indent p.isGap (fits_in_front_of_rest h),
          placedFrom, Placed.tokens_drop_cons_of_isUnknown hplaced]
        exact ih _ _ hps.tail hfits
      · have hplaced : ¬ (⟨before ++ p.gap, p.lexeme, line.past p.gap⟩ : Placed).isUnknown = true :=
          hunknown
        rw [pieces_knownFrom_of_not_isUnknown hunknown, placedFrom, List.map_cons,
          placedFrom, Placed.tokens_drop_cons_of_not_isUnknown hplaced,
          ih (before ++ p.gap ++ p.lexeme) _ hps.tail hfits]
        rfl

theorem lineFrom_knownFrom (hps : ps.IsChain Piece.Apart) (htail : IsGap tail)
    (h : line.toNat + newlines (write ps tail) < UInt32.size) :
    lineFrom line (knownFrom ps tail hps htail).1.pieces (knownFrom ps tail hps htail).1.tail =
      lineFrom line ps tail := by
  induction ps generalizing line with
  | nil => rfl
  | cons p ps ih =>
      have hrest := ih hps.tail (fits_behind_piece h)
      by_cases hunknown : p.isUnknown = true
      · rw [knownFrom_of_isUnknown hunknown, lineFrom_indent p.isGap (fits_in_front_of_rest h)]
        exact hrest
      · rw [pieces_knownFrom_of_not_isUnknown hunknown, tail_knownFrom_of_not_isUnknown hunknown]
        exact hrest

variable {l : Layout}

theorem fits_first (h : newlines l.text ≤ UInt32.size - 2) :
    LineNumber.first.toNat + newlines (write l.pieces l.tail) < UInt32.size :=
  LineNumber.fits (Nat.le_of_eq LineNumber.counts_first) (by simpa [text] using h)

theorem map_token_known (h : newlines l.text ≤ UInt32.size - 2) :
    l.known.placed.map Placed.token = Placed.tokens .drop l.placed :=
  tokens_knownFrom "" "" l.apart l.isGap_tail (fits_first h)

theorem lastLine_known (h : newlines l.text ≤ UInt32.size - 2) : l.known.lastLine = l.lastLine :=
  lineFrom_knownFrom l.apart l.isGap_tail (fits_first h)

/-- All that is left has a token where what is unknown is dropped, and so it is known. -/
theorem isUnknown_of_mem_known {q : Placed} (h : newlines l.text ≤ UInt32.size - 2)
    (hq : q ∈ l.known.placed) : q.isUnknown = false := by
  have htoken : q.token ∈ Placed.tokens .drop l.placed := by
    rw [← map_token_known h]
    exact List.mem_map_of_mem hq
  rw [Placed.tokens_drop] at htoken
  have hkind : q.token.kind ≠ .error := by simpa using (List.mem_filter.1 htoken).2
  exact Bool.eq_false_iff.2 fun hunknown => hkind (Placed.kind_token_eq_error_iff.2 hunknown)

theorem diagnostics_known (h : newlines l.text ≤ UInt32.size - 2) :
    Placed.diagnostics l.known.placed = [] := by
  have hnone : l.known.placed.filter Placed.isUnknown = [] :=
    List.filter_eq_nil_iff.2 fun q hq => by simp [isUnknown_of_mem_known h hq]
  rw [Placed.diagnostics, hnone, List.map_nil]

theorem tokens_known (policy : Policy) (h : newlines l.text ≤ UInt32.size - 2) :
    Placed.tokens policy l.known.placed = Placed.tokens .drop l.placed := by
  have hall : l.known.placed.filter (Placed.hasToken policy) = l.known.placed :=
    List.filter_eq_self.2 fun q hq => by simp [Placed.hasToken, isUnknown_of_mem_known h hq]
  rw [Placed.tokens, hall, map_token_known h]

end Layout

/-- The bytes that the diagnostics stand for taken out of a source, what is left is a text again.
There is nothing unknown in it, and its tokens are those of the source, in the same lines. -/
theorem lex_erase_unknown (source : String) (hbound : newlines source ≤ UInt32.size - 2) :
    ∃ known : String,
      bytes known = erase ((lex source .drop).diagnostics.map Diagnostic.span) source ∧
      ∀ policy, (lex known policy).diagnostics = [] ∧
        (lex known policy).tokens = (lex source .drop).tokens := by
  rcases Layout.exists_text_eq source with ⟨l, rfl⟩
  refine ⟨l.known.text, ?_, ?_⟩
  · rw [Layout.text_known, Layout.lex_text]
    exact Layout.bytes_writeKnown "" LineNumber.first l.pieces l.tail
  · intro policy
    simp only [Layout.lex_text, Layout.lexed, Layout.diagnostics_known hbound,
      Layout.tokens_known policy hbound, Layout.lastLine_known hbound, and_self]

/-- One of the two words is behind a name, and the other is all there is in its line. -/
theorem lex_erase_unknown_between_lines :
    newlines "a é\n$$\n;" ≤ UInt32.size - 2 ∧
    (lex "a \n\n;" .errorToken).tokens = (lex "a é\n$$\n;" .drop).tokens := by
  have hbound : newlines "a é\n$$\n;" ≤ UInt32.size - 2 := by decide +kernel
  rcases lex_erase_unknown "a é\n$$\n;" hbound with ⟨known, hbytes, hlex⟩
  have hspans : (lex "a é\n$$\n;" .drop).diagnostics.map Diagnostic.span = [⟨2, 4⟩, ⟨5, 7⟩] := by
    decide +kernel
  have hknown : known = "a \n\n;" := by
    apply bytes_inj.1
    rw [hbytes, hspans]
    decide +kernel
  rw [← hknown]
  exact ⟨hbound, (hlex .errorToken).2⟩

end Rill
