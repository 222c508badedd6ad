import Rill.Lexed
import Rill.Proofs.Reachable

/-!
# Faults — a pass asks for no text that is not there

A step can go wrong in one way only: by asking for the text between two offsets of which one lies
inside a character, or behind the other.

* `Scanner.Cuts s c start` — the text that a step of `s` asks for;
* `Scanner.step_eq_error_iff` — a step goes wrong where that text is refused, and nowhere else;
* `scan_never_faults` — it never is, so that every source is lexed.
-/

namespace Rill
namespace Scanner

open Utf8

/-- The step of `s` moves the cursor to `c`, and then asks for the text from `start` to there. -/
inductive Cuts (s : Scanner) : Cursor → Nat → Prop
  | mark {b : UInt8} {mark : Punctuation} : s.cursor.current? = some b →
      Byte.isWhitespace b = false → Punctuation.ofByte? b = some mark →
      Cuts s s.cursor.advance s.cursor.pos
  | word {b : UInt8} : s.cursor.current? = some b →
      Byte.isWhitespace b = false → Punctuation.ofByte? b = none →
      Cuts s s.cursor.eatCandidate s.cursor.pos

theorem map_eq_error_iff {α β : Type} {x : Except SliceFault α} {f : α → β} {fault : SliceFault} :
    x.map f = .error fault ↔ x = .error fault := by
  cases x <;> simp [Except.map]

theorem step_eq_error_iff {s : Scanner} {fault : SliceFault} :
    s.step = .error fault ↔ ∃ c start, s.Cuts c start ∧ c.sliceFrom start = .error fault := by
  constructor
  · intro h
    unfold step at h
    split at h
    case h_1 => cases h
    case h_2 b hb =>
      split at h
      case isTrue => cases h
      case isFalse hw =>
        -- Marks and words are what is cut out; the rest of the step only notes them.
        have hspace : Byte.isWhitespace b = false := by simpa using hw
        split at h
        case h_1 mark hmark =>
          exact ⟨_, _, .mark hb hspace hmark, map_eq_error_iff.1 h⟩
        case h_2 hmark =>
          exact ⟨_, _, .word hb hspace hmark, map_eq_error_iff.1 h⟩
  · rintro ⟨c, start, hcut, hfault⟩
    cases hcut with
    | mark hb hw hmark =>
        simp only [step, hb, hw, hmark]
        exact map_eq_error_iff.2 hfault
    | word hb hw hmark =>
        simp only [step, hb, hw, hmark]
        exact map_eq_error_iff.2 hfault

/-! ## Where the cuts are -/

variable {s : Scanner} {c : Cursor} {start : Nat}

theorem Cuts.source_eq (h : s.Cuts c start) : c.source = s.cursor.source := by
  cases h with
  | mark => exact Cursor.source_advance s.cursor
  | word => exact Cursor.source_eatWhile s.cursor _

theorem Cuts.start_eq (h : s.Cuts c start) : start = s.cursor.pos := by
  cases h <;> rfl

theorem Cuts.start_le (h : s.Cuts c start) : start ≤ c.pos := by
  cases h with
  | mark hb =>
      rw [Cursor.advance_of_current? hb]
      exact Nat.le_succ _
  | word =>
      rw [Cursor.eatCandidate, Cursor.pos_eatWhile]
      exact Nat.le_add_right _ _

/-- Punctuation marks are ASCII, and so is every byte that a word stops at. -/
theorem Cuts.onBoundary (h : s.Cuts c start) (hs : s.cursor.OnBoundary) : c.OnBoundary := by
  cases h with
  | mark hb _ hmark =>
      have hpunct := Punctuation.isPunctuation_of_ofByte? hmark
      exact Cursor.onBoundary_advance hs hb (Byte.lt_128_of_isPunctuation hpunct)
  | word => exact Cursor.onBoundary_eatCandidate hs

theorem Cuts.exists_sliceFrom_eq_ok (h : s.Cuts c start) (hs : s.cursor.OnBoundary) :
    ∃ text, c.sliceFrom start = .ok text := by
  -- A cut begins where the scanner stands, which is between characters already.
  refine Cursor.exists_slice_eq_ok h.start_le ?_ (h.onBoundary hs)
  rw [h.source_eq, h.start_eq]
  exact hs

/-- A step goes wrong only where a text that it asks for is refused.  In every state that the pass
over a source comes to, such a text lies between two offsets of the source, in order and both
between characters; the whitespace that a step counts lines in lies within the source; and so the
pass comes to its end, whatever the source and the policy. -/
theorem scan_never_faults (source : String) (policy : Policy) :
    (∀ (s : Scanner) (fault : SliceFault), s.step = .error fault ↔
      ∃ c start, s.Cuts c start ∧ c.sliceFrom start = .error fault) ∧
    (∀ s, Reachable source policy s →
      s.run = (Scanner.start source policy).run ∧
      (∀ c start, s.Cuts c start →
        start ≤ c.pos ∧ c.pos ≤ source.utf8ByteSize ∧
        IsCharBoundary source start ∧ IsCharBoundary source c.pos ∧
        ∃ text, c.sliceFrom start = .ok text) ∧
      (s.cursor.pos ≤ s.cursor.eatWhitespace.1.pos ∧
        s.cursor.eatWhitespace.1.pos ≤ source.utf8ByteSize) ∧
      ∃ t, s.step = .ok t) ∧
    ∃ t, scan source policy = .ok t ∧
      lex source policy = ⟨t.tokens.toList, t.diagnostics.toList⟩ := by
  refine ⟨fun _ _ => step_eq_error_iff, ?_, ofSource source policy, scan_eq_ok source policy, rfl⟩
  intro s hs
  have hboundary : s.cursor.OnBoundary := hs.onBoundary
  refine ⟨hs.run_eq, ?_, ⟨?_, ?_⟩, ?_⟩
  · -- Both ends of a cut are boundaries of the one source.
    intro c start hcut
    have hsource : c.source = source := hcut.source_eq.trans hs.source_eq
    have hstart : IsCharBoundary source start := by
      rw [hcut.start_eq, ← hs.source_eq]
      exact hboundary
    have hpos : IsCharBoundary source c.pos := hsource ▸ hcut.onBoundary hboundary
    exact ⟨hcut.start_le, hpos.le_size, hstart, hpos, hcut.exists_sliceFrom_eq_ok hboundary⟩
  · -- Eating only moves forward, and stops between two characters, so within the source.
    rw [Cursor.eatWhitespace, Cursor.pos_eatWhile]
    exact Nat.le_add_right _ _
  · have hafter : s.cursor.eatWhitespace.1.OnBoundary := Cursor.onBoundary_eatWhitespace hboundary
    have hsource : s.cursor.eatWhitespace.1.source = source :=
      (Cursor.source_eatWhile s.cursor _).trans hs.source_eq
    exact hsource ▸ hafter.le_size
  · cases hstep : s.step with
    | ok t => exact ⟨t, rfl⟩
    | error fault =>
        -- A fault would come from a cut, and no cut is refused here.
        rcases step_eq_error_iff.1 hstep with ⟨c, start, hcut, hfault⟩
        rcases hcut.exists_sliceFrom_eq_ok hboundary with ⟨text, htext⟩
        rw [htext] at hfault
        cases hfault

end Scanner
end Rill
