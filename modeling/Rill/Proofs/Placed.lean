import Rill.Lexed
import Rill.Proofs.Layout

/-!
# Placed — what there is to say about the lexemes of a layout

The tokens and the diagnostics of a source can be read off its layout: each lexeme needs only the
text in front of it, and the line that this text leads to.

* `Placed` — a lexeme with the text in front of it and its line;
* `Placed.tokens`, `Placed.diagnostics` — what a list of them yields;
* `Layout.placed`, `Layout.lexed` — the lexemes of a layout in their places, and what they yield;
* `Layout.counts_lastLine`, `Layout.counts_front` — lines count the line ends in front of them, as
  long as 32 bits can hold the number.
-/

namespace Rill

open Utf8 Lexeme

/-! ## Lines behind a gap -/

namespace LineNumber

def past (line : LineNumber) (gap : String) : LineNumber :=
  line.advance (UInt32.ofNat (newlines gap))

@[simp]
theorem past_empty (line : LineNumber) : line.past "" = line := by
  have hfits : line.toNat + (UInt32.ofNat 0).toNat < UInt32.size := line.toNat_lt
  rw [past, newlines_empty, advance, if_pos hfits]
  exact UInt32.add_zero line

theorem toNat_past {line : LineNumber} {gap : String}
    (h : line.toNat + newlines gap < UInt32.size) :
    (line.past gap).toNat = line.toNat + newlines gap := by
  have hgap : (UInt32.ofNat (newlines gap)).toNat = newlines gap :=
    UInt32.toNat_ofNat_of_lt (Nat.lt_of_le_of_lt (Nat.le_add_left _ _) h)
  -- The sum is below the bound, so it is not cut off either.
  simp only [past, toNat_advance, hgap, toNat_last]
  omega

/-- The largest number stands for itself, and the lines count from one: so two line ends less than
there are numbers can be counted. -/
theorem fits {line : LineNumber} {before gap : String} (hline : line.toNat ≤ 1 + newlines before)
    (hbound : newlines (before ++ gap) ≤ UInt32.size - 2) :
    line.toNat + newlines gap < UInt32.size := by
  have hroom : UInt32.size - 2 + 1 < UInt32.size := by decide
  rw [newlines_append] at hbound
  omega

/-- The line of what stands behind `before`. -/
def Counts (line : LineNumber) (before : String) : Prop :=
  line.toNat = 1 + newlines before

theorem counts_first : first.Counts "" := rfl

theorem Counts.past {line : LineNumber} {before gap : String} (h : line.Counts before)
    (hbound : newlines (before ++ gap) ≤ UInt32.size - 2) :
    (line.past gap).Counts (before ++ gap) := by
  have hpast := toNat_past (fits (Nat.le_of_eq h) hbound)
  simp only [Counts, newlines_append, hpast] at h ⊢
  omega

theorem counts_past_first {text : String} (h : newlines text ≤ UInt32.size - 2) :
    (first.past text).Counts text := by
  have hempty : "" ++ text = text := String.empty_append
  rw [← hempty] at h
  simpa only [hempty] using counts_first.past h

/-- A lexeme holds no line end. -/
theorem Counts.append_lexeme {line : LineNumber} {before x : String} (h : line.Counts before)
    (hx : IsLexeme x) : line.Counts (before ++ x) := by
  simpa [Counts, hx.newlines_eq_zero] using h

end LineNumber

/-! ## Lexemes in their places -/

structure Placed where
  before : String
  lexeme : String
  line : LineNumber
  deriving DecidableEq, Repr

namespace Placed

def token (p : Placed) : Token :=
  ⟨kind p.lexeme, p.lexeme, p.line⟩

def diagnostic (p : Placed) : Diagnostic :=
  ⟨p.lexeme, p.line, ⟨p.before.utf8ByteSize, (p.before ++ p.lexeme).utf8ByteSize⟩⟩

def isUnknown (p : Placed) : Bool :=
  (kind? p.lexeme).isNone

/-- Under `drop`, a lexeme that the language does not have gets no token. -/
def hasToken (policy : Policy) (p : Placed) : Bool :=
  policy == .errorToken || !p.isUnknown

def tokens (policy : Policy) (ps : List Placed) : List Token :=
  (ps.filter (hasToken policy)).map token

def diagnostics (ps : List Placed) : List Diagnostic :=
  (ps.filter isUnknown).map diagnostic

@[simp]
theorem tokens_append (policy : Policy) (ps qs : List Placed) :
    tokens policy (ps ++ qs) = tokens policy ps ++ tokens policy qs := by
  simp [tokens]

@[simp]
theorem diagnostics_append (ps qs : List Placed) :
    diagnostics (ps ++ qs) = diagnostics ps ++ diagnostics qs := by
  simp [diagnostics]

/-- Whether a lexeme has a token, or a diagnostic, is said by the lexeme alone. -/
theorem tokens_map {f : Placed → Placed} (hf : ∀ p, (f p).lexeme = p.lexeme) (policy : Policy)
    (ps : List Placed) :
    tokens policy (ps.map f) = (ps.filter (hasToken policy)).map (token ∘ f) := by
  have hkeep : hasToken policy ∘ f = hasToken policy := by
    funext p
    simp [hasToken, isUnknown, hf]
  rw [tokens, List.filter_map, List.map_map, hkeep]

theorem diagnostics_map {f : Placed → Placed} (hf : ∀ p, (f p).lexeme = p.lexeme)
    (ps : List Placed) :
    diagnostics (ps.map f) = (ps.filter isUnknown).map (diagnostic ∘ f) := by
  have hkeep : isUnknown ∘ f = isUnknown := by
    funext p
    simp [isUnknown, hf]
  rw [diagnostics, List.filter_map, List.map_map, hkeep]

@[simp]
theorem tokens_errorToken (ps : List Placed) : tokens .errorToken ps = ps.map token := by
  have hall : ps.filter (hasToken .errorToken) = ps :=
    List.filter_eq_self.2 fun _ _ => rfl
  simp [tokens, hall]

theorem kind_token_eq_error_iff {p : Placed} : p.token.kind = .error ↔ p.isUnknown = true := by
  simp [token, isUnknown, kind_eq_error_iff]

/-- The error tokens are the tokens of what the language does not have. -/
theorem filter_error_tokens (ps : List Placed) :
    (ps.map token).filter (fun t => t.kind = .error) = (ps.filter isUnknown).map token := by
  have hfilter : ps.filter (fun p => p.token.kind = .error) = ps.filter isUnknown := by
    apply List.filter_congr
    intro p _
    simp [kind_token_eq_error_iff]
  calc
    (ps.map token).filter (fun t => t.kind = .error)
        = (ps.filter (fun p => p.token.kind = .error)).map token := by
          simp [List.filter_map, Function.comp_def]
    _ = (ps.filter isUnknown).map token := by rw [hfilter]

/-- Dropping is leaving the error tokens out. -/
theorem tokens_drop (ps : List Placed) :
    tokens .drop ps = (ps.map token).filter (fun t => t.kind ≠ .error) := by
  have hfilter : ps.filter (hasToken .drop) = ps.filter (fun p => p.token.kind ≠ .error) := by
    apply List.filter_congr
    intro p _
    simp [hasToken, kind_token_eq_error_iff]
  calc
    tokens .drop ps = (ps.filter (fun p => p.token.kind ≠ .error)).map token := by
          rw [tokens, hfilter]
    _ = (ps.map token).filter (fun t => t.kind ≠ .error) := by
          simp [List.filter_map, Function.comp_def]

/-- A lexeme has a token under `drop`, or a diagnostic, and never both. -/
theorem length_eq_add (ps : List Placed) :
    ps.length = (tokens .drop ps).length + (diagnostics ps).length := by
  have hother : (fun p => !hasToken .drop p) = isUnknown := by
    funext p
    simp [hasToken, show (Policy.drop == .errorToken) = false from rfl]
  -- The two filters take complementary parts of the same list.
  have hsplit := List.length_eq_length_filter_add (l := ps) (hasToken .drop)
  rw [hother] at hsplit
  simpa [tokens, diagnostics] using hsplit

end Placed

/-! ## The lexemes of a layout -/

namespace Layout

@[simp]
def placedFrom (before : String) (line : LineNumber) : List Piece → List Placed
  | [] => []
  | p :: ps =>
      ⟨before ++ p.gap, p.lexeme, line.past p.gap⟩ ::
        placedFrom (before ++ p.gap ++ p.lexeme) (line.past p.gap) ps

@[simp]
def lineFrom (line : LineNumber) : List Piece → String → LineNumber
  | [], tail => line.past tail
  | p :: ps, tail => lineFrom (line.past p.gap) ps tail

def placed (l : Layout) : List Placed :=
  placedFrom "" LineNumber.first l.pieces

def lastLine (l : Layout) : LineNumber :=
  lineFrom LineNumber.first l.pieces l.tail

def lexed (policy : Policy) (l : Layout) : Lexed where
  tokens := Placed.tokens policy l.placed ++ [Token.endOfInput l.lastLine]
  diagnostics := Placed.diagnostics l.placed

@[simp]
theorem map_lexeme_placedFrom (before : String) (line : LineNumber) (ps : List Piece) :
    (placedFrom before line ps).map Placed.lexeme = ps.map Piece.lexeme := by
  induction ps generalizing before line with
  | nil => rfl
  | cons p ps ih => simp [ih]

@[simp]
theorem length_placedFrom (before : String) (line : LineNumber) (ps : List Piece) :
    (placedFrom before line ps).length = ps.length := by
  have hlexemes := congrArg List.length (map_lexeme_placedFrom before line ps)
  rwa [List.length_map, List.length_map] at hlexemes

/-- Tokens keep the lexemes and their order. -/
theorem map_token_placed (l : Layout) :
    (l.placed.map Placed.token).map (fun t => (t.kind, t.lexeme)) =
      l.lexemes.map fun x => (kind x, x) := by
  calc
    (l.placed.map Placed.token).map (fun t => (t.kind, t.lexeme))
        = (l.placed.map Placed.lexeme).map fun x => (kind x, x) := by
          simp [Placed.token, Function.comp_def]
    _ = l.lexemes.map fun x => (kind x, x) := by
          rw [placed, map_lexeme_placedFrom, lexemes]

/-- Where a lexeme stands, and in which line, is said by what is in front of it. -/
theorem placedFrom_append_cons (before : String) (line : LineNumber) (ps : List Piece) (p : Piece)
    (qs : List Piece) :
    placedFrom before line (ps ++ p :: qs) = placedFrom before line ps ++
      ⟨before ++ write ps p.gap, p.lexeme, lineFrom line ps p.gap⟩ ::
        placedFrom (before ++ write ps p.gap ++ p.lexeme) (lineFrom line ps p.gap) qs := by
  induction ps generalizing before line with
  | nil => rfl
  | cons r rs ih => simp [ih]

/-- What is behind a piece has been placed behind its lexeme. -/
theorem exists_of_mem_placedFrom {before : String} {line : LineNumber} {ps : List Piece}
    {q : Placed} (h : q ∈ placedFrom before line ps) :
    ∃ rs p qs, ps = rs ++ p :: qs ∧
      q = ⟨before ++ write rs p.gap, p.lexeme, lineFrom line rs p.gap⟩ := by
  induction ps generalizing before line with
  | nil => cases h
  | cons p ps ih =>
      rcases List.mem_cons.1 h with rfl | h
      · exact ⟨[], p, ps, rfl, rfl⟩
      · rcases ih h with ⟨rs, r, qs, rfl, rfl⟩
        exact ⟨p :: rs, r, qs, rfl, by simp⟩

theorem mem_placed_iff {l : Layout} {q : Placed} :
    q ∈ l.placed ↔ ∃ ps p qs, l.pieces = ps ++ p :: qs ∧
      q = ⟨write ps p.gap, p.lexeme, lineFrom LineNumber.first ps p.gap⟩ := by
  constructor
  · intro h
    simpa using exists_of_mem_placedFrom h
  · rintro ⟨ps, p, qs, hpieces, rfl⟩
    rw [placed, hpieces, placedFrom_append_cons]
    simp

/-! ## Lines count line ends -/

variable {before tail : String} {line : LineNumber} {ps : List Piece}

theorem counts_lineFrom (hline : line.Counts before)
    (hbound : newlines (before ++ write ps tail) ≤ UInt32.size - 2) :
    (lineFrom line ps tail).Counts (before ++ write ps tail) := by
  induction ps generalizing before line with
  | nil => exact hline.past hbound
  | cons p ps ih =>
      -- The gap and the lexeme of `p` move over to what has been counted.
      have htext : before ++ write (p :: ps) tail =
          before ++ p.gap ++ p.lexeme ++ write ps tail := by
        simp
      rw [htext] at hbound ⊢
      have hgap : newlines (before ++ p.gap) ≤ UInt32.size - 2 := by
        simp only [newlines_append] at hbound ⊢
        omega
      exact ih ((hline.past hgap).append_lexeme p.isLexeme) hbound

theorem counts_lineFrom_first (hbound : newlines (write ps tail) ≤ UInt32.size - 2) :
    (lineFrom LineNumber.first ps tail).Counts (write ps tail) := by
  have hempty : "" ++ write ps tail = write ps tail := String.empty_append
  rw [← hempty] at hbound ⊢
  exact counts_lineFrom LineNumber.counts_first hbound

theorem counts_lastLine {l : Layout} (h : newlines l.text ≤ UInt32.size - 2) :
    l.lastLine.Counts l.text :=
  counts_lineFrom_first h

/-- So it is in front of each lexeme. -/
theorem counts_front {l : Layout} (h : newlines l.text ≤ UInt32.size - 2) {ps qs : List Piece}
    {p : Piece} (hl : l.pieces = ps ++ p :: qs) :
    (lineFrom LineNumber.first ps p.gap).Counts (write ps p.gap) := by
  have hle : newlines (write ps p.gap) ≤ newlines l.text := by
    rw [text_eq_of_pieces hl, newlines_append]
    exact Nat.le_add_right _ _
  exact counts_lineFrom_first (hle.trans h)

/-- The lexeme of a piece comes where the pieces in front of it have been counted. -/
theorem placed_getElem? {l : Layout} {ps qs : List Piece} {p : Piece}
    (h : l.pieces = ps ++ p :: qs) :
    l.placed[ps.length]? =
      some ⟨write ps p.gap, p.lexeme, lineFrom LineNumber.first ps p.gap⟩ := by
  have hlen := length_placedFrom "" LineNumber.first ps
  -- The index is the length of the first part, so it is the head of the second.
  rw [placed, h, placedFrom_append_cons, ← hlen, List.getElem?_append_right (Nat.le_refl _)]
  simp

end Layout
end Rill
