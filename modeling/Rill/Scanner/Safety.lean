import Rill.Cursor.Boundary
import Rill.Scanner

/-!
# Safety — a scan never cuts inside a character

The bytes that end a lexeme are ASCII, so a scanner that stands between two characters cuts only
there, and stands between two characters again after the step.

* `Scanner.step_onBoundary` — such a step succeeds and keeps the invariant;
* `Scanner.exists_run_eq_ok`, `Scanner.exists_scan_eq_ok` — so does a pass from any such point, and
  the pass over any source;
* `Scanner.ofSource` — what the pass over a source finds, as a total function.
-/

namespace Rill
namespace Scanner

/-! ## One step -/

theorem exists_takePunctuation_eq_ok {s : Scanner} {b : UInt8} (mark : Punctuation)
    (hs : s.cursor.OnBoundary) (hb : s.cursor.current? = some b) (hascii : b < 128) :
    ∃ t, s.takePunctuation mark = .ok t := by
  have hnext := Cursor.onBoundary_advance hs hb hascii
  have hle : s.cursor.pos ≤ s.cursor.advance.pos := by
    rw [Cursor.advance_of_current? hb]
    exact Nat.le_succ _
  obtain ⟨lexeme, hcut⟩ := Cursor.exists_slice_eq_ok (c := s.cursor.advance) hle
    (by rw [Cursor.source_advance]; exact hs) hnext
  simp [takePunctuation, Cursor.sliceFrom, hcut, Except.map]

theorem exists_takeCandidate_eq_ok {s : Scanner} (hs : s.cursor.OnBoundary) :
    ∃ t, s.takeCandidate = .ok t := by
  have hnext := Cursor.onBoundary_eatCandidate hs
  have hle : s.cursor.pos ≤ s.cursor.eatCandidate.pos := by
    rw [Cursor.eatCandidate, Cursor.pos_eatWhile]
    exact Nat.le_add_right _ _
  obtain ⟨text, hcut⟩ := Cursor.exists_slice_eq_ok (c := s.cursor.eatCandidate) hle
    (by rw [Cursor.eatCandidate, Cursor.source_eatWhile]; exact hs) hnext
  simp [takeCandidate, Cursor.sliceFrom, hcut, Except.map]

theorem step_onBoundary {s : Scanner} (hs : s.cursor.OnBoundary) :
    ∃ t, s.step = .ok t ∧ t.cursor.OnBoundary := by
  unfold step
  split
  case h_1 => exact ⟨s, rfl, hs⟩
  case h_2 b hb =>
    split
    case isTrue hw => exact ⟨_, rfl, Cursor.onBoundary_eatWhitespace hs⟩
    case isFalse hw =>
      -- A mark is one ASCII byte; a word is over where an ASCII byte stands.
      split
      case h_1 mark hm =>
        have hascii : b < 128 :=
          Byte.lt_128_of_isPunctuation (Punctuation.isPunctuation_of_ofByte? hm)
        obtain ⟨t, ht⟩ := exists_takePunctuation_eq_ok mark hs hb hascii
        refine ⟨t, ht, ?_⟩
        rw [cursor_of_takePunctuation ht]
        exact Cursor.onBoundary_advance hs hb hascii
      case h_2 hm =>
        obtain ⟨t, ht⟩ := exists_takeCandidate_eq_ok hs
        refine ⟨t, ht, ?_⟩
        rw [cursor_of_takeCandidate ht]
        exact Cursor.onBoundary_eatCandidate hs

/-! ## The whole pass -/

theorem exists_run_eq_ok {s : Scanner} (hs : s.cursor.OnBoundary) : ∃ t, s.run = .ok t := by
  fun_induction run s with
  | case1 s hend => exact ⟨s, rfl⟩
  | case2 s hend fault hstep =>
      obtain ⟨t, ht, _⟩ := step_onBoundary hs
      rw [ht] at hstep
      cases hstep
  | case3 s hend t hstep ih =>
      obtain ⟨t', ht', hb⟩ := step_onBoundary hs
      rw [ht'] at hstep
      cases hstep
      exact ih hb

theorem exists_scan_eq_ok (source : String) (policy : Policy) :
    ∃ t, scan source policy = .ok t := by
  obtain ⟨t, ht⟩ :=
    exists_run_eq_ok (s := start source policy) (Cursor.onBoundary_start source)
  exact ⟨t.finish, by simp [scan, ht, Except.map]⟩

/-- The scanner at the end of the pass over `source`. -/
def ofSource (source : String) (policy : Policy) : Scanner :=
  match h : scan source policy with
  | .ok t => t
  | .error _ => absurd (exists_scan_eq_ok source policy) (by simp [h])

theorem scan_eq_ok (source : String) (policy : Policy) :
    scan source policy = .ok (ofSource source policy) := by
  unfold ofSource
  split
  case h_1 t h => exact h
  case h_2 fault h => exact absurd (exists_scan_eq_ok source policy) (by simp [h])

end Scanner
end Rill
