import Rill.Proofs.Reading

/-!
# LineCount — how many lines a scan counts

The line ends of one gap are counted in 32 bits before they are added, and the sum stops at the last
line number.  So lines stop there too, unless a single gap holds more line ends than 32 bits can
count: of such a gap the scan counts only what is left over.

* `Layout.counted` — how many line ends a scan counts;
* `Layout.toNat_lineFrom` — it comes to a line of that number, or to the last one;
* `Layout.counted_eq_newlines` — these are all there are, if every gap can be counted;
* `lex_lines_counted` — the lines of all tokens and diagnostics;
* `lex_line_lost` — a source of line ends only, of which none is counted.
-/

namespace Rill

open Utf8 Lexeme

namespace LineNumber

theorem toNat_past_eq_min (line : LineNumber) (gap : String) :
    (line.past gap).toNat = min (line.toNat + newlines gap % UInt32.size) last.toNat := by
  rw [past, toNat_advance, UInt32.toNat_ofNat']

end LineNumber

namespace Layout

/-- A gap counts for its line ends above the last multiple of what 32 bits can hold. -/
def counted : List Piece → String → Nat
  | [], tail => newlines tail % UInt32.size
  | p :: ps, tail => newlines p.gap % UInt32.size + counted ps tail

def gaps (l : Layout) : List String :=
  l.pieces.map Piece.gap ++ [l.tail]

/-- Once at the last line, a scan stays there. -/
theorem toNat_lineFrom (line : LineNumber) (ps : List Piece) (tail : String) :
    (lineFrom line ps tail).toNat = min (line.toNat + counted ps tail) LineNumber.last.toNat := by
  induction ps generalizing line with
  | nil => exact LineNumber.toNat_past_eq_min line tail
  | cons p ps ih =>
      rw [lineFrom, ih, LineNumber.toNat_past_eq_min, counted]
      omega

variable {ps : List Piece} {tail : String}

theorem counted_eq_newlines (hps : ∀ p ∈ ps, newlines p.gap < UInt32.size)
    (htail : newlines tail < UInt32.size) : counted ps tail = newlines (write ps tail) := by
  induction ps with
  | nil => exact Nat.mod_eq_of_lt htail
  | cons p ps ih =>
      rcases List.forall_mem_cons.1 hps with ⟨hp, hps⟩
      rw [counted, Nat.mod_eq_of_lt hp, ih hps]
      simp

/-- A scan that can count every gap has counted all line ends in front of where it stands. -/
theorem toNat_lineFrom_eq_min (hps : ∀ p ∈ ps, newlines p.gap < UInt32.size)
    (htail : newlines tail < UInt32.size) :
    (lineFrom LineNumber.first ps tail).toNat =
      min (1 + newlines (write ps tail)) (UInt32.size - 1) := by
  rw [toNat_lineFrom, counted_eq_newlines hps htail]
  rfl

theorem toNat_lastLine_eq_min {l : Layout} (h : ∀ gap ∈ l.gaps, newlines gap < UInt32.size) :
    l.lastLine.toNat = min (1 + newlines l.text) (UInt32.size - 1) := by
  refine toNat_lineFrom_eq_min (fun p hp => h _ ?_) (h _ (by simp [gaps]))
  exact List.mem_append_left _ (List.mem_map_of_mem hp)

theorem toNat_line_eq_min {l : Layout} (h : ∀ gap ∈ l.gaps, newlines gap < UInt32.size)
    {q : Placed} (hq : q ∈ l.placed) :
    q.line.toNat = min (1 + newlines q.before) (UInt32.size - 1) := by
  rcases mem_placed_iff.1 hq with ⟨ps, p, qs, hpieces, rfl⟩
  have hgap : ∀ r ∈ ps ++ p :: qs, newlines r.gap < UInt32.size := by
    intro r hr
    rw [← hpieces] at hr
    exact h _ (List.mem_append_left _ (List.mem_map_of_mem hr))
  exact toNat_lineFrom_eq_min (fun r hr => hgap r (List.mem_append_left _ hr)) (hgap p (by simp))

end Layout

open Layout

/-- Every lexeme, and the end of the input, is in the line that is counted in front of it, or in the
last one.  If no gap holds more line ends than 32 bits can count, that is the line it stands in:
lines then stop at the last one. -/
theorem lex_lines_counted (source : String) (policy : Policy) :
    ∃ l : Layout, l.text = source ∧
      (lex source policy).tokens = Placed.tokens policy l.placed ++ [Token.endOfInput l.lastLine] ∧
      (lex source policy).diagnostics = Placed.diagnostics l.placed ∧
      l.lastLine.toNat = min (1 + counted l.pieces l.tail) (UInt32.size - 1) ∧
      (∀ ps p qs, l.pieces = ps ++ p :: qs →
        l.placed[ps.length]?.map (fun q => (q.before, q.lexeme, q.line.toNat)) =
          some (write ps p.gap, p.lexeme, min (1 + counted ps p.gap) (UInt32.size - 1))) ∧
      ((∀ gap ∈ l.gaps, newlines gap < UInt32.size) →
        l.lastLine.toNat = min (1 + newlines source) (UInt32.size - 1) ∧
        ∀ q ∈ l.placed, q.line.toNat = min (1 + newlines q.before) (UInt32.size - 1)) := by
  rcases exists_text_eq source with ⟨l, rfl⟩
  refine ⟨l, rfl, by rw [lex_text, lexed], by rw [lex_text, lexed], toNat_lineFrom _ _ _, ?_, ?_⟩
  · intro ps p qs hpieces
    rw [placed_getElem? hpieces, Option.map_some, toNat_lineFrom]
    rfl
  · intro hgaps
    exact ⟨toNat_lastLine_eq_min hgaps, fun q hq => toNat_line_eq_min hgaps hq⟩

/-! ## A gap that cannot be counted -/

theorem bytes_replicate_newline (n : Nat) :
    bytes (String.ofList (List.replicate n '\n')) = List.replicate n Byte.newline := by
  have henc : String.utf8EncodeChar '\n' = [Byte.newline] := by decide
  rw [bytes_ofList]
  induction n with
  | zero => rfl
  | succ n ih => rw [List.replicate_succ, List.flatMap_cons, henc, ih, List.replicate_succ]; rfl

theorem newlines_replicate (n : Nat) : newlines (String.ofList (List.replicate n '\n')) = n := by
  rw [newlines, bytes_replicate_newline, List.count_replicate_self]

/-- A source of line ends only is one gap. -/
theorem lex_replicate_newline (n : Nat) (policy : Policy) :
    lex (String.ofList (List.replicate n '\n')) policy =
      ⟨[Token.endOfInput (LineNumber.first.past (String.ofList (List.replicate n '\n')))], []⟩ := by
  have hgap : IsGap (String.ofList (List.replicate n '\n')) := by
    intro b hb
    rw [bytes_replicate_newline] at hb
    rw [List.eq_of_mem_replicate hb]
    decide
  exact lex_text ⟨[], _, List.isChain_nil, hgap⟩ policy

/-- As many line ends as 32 bits have numbers are counted as none: the end of the input is in the
first line, where it should be in the last there is. -/
theorem lex_line_lost :
    (lex (String.ofList (List.replicate UInt32.size '\n')) .drop).tokens =
      [Token.endOfInput LineNumber.first] ∧
    LineNumber.first.toNat ≠
      min (1 + newlines (String.ofList (List.replicate UInt32.size '\n'))) (UInt32.size - 1) := by
  constructor
  · have hline : LineNumber.first.past (String.ofList (List.replicate UInt32.size '\n')) =
        LineNumber.first := by
      apply UInt32.toNat_inj.1
      rw [LineNumber.toNat_past_eq_min, newlines_replicate, Nat.mod_self]
      rfl
    rw [lex_replicate_newline, hline]
  · rw [newlines_replicate]
    decide

end Rill
