import Rill.Scanner.Safety

/-!
# Reachable — the states that a pass goes through

* `Scanner.Reachable source policy s` — the pass over `source` comes to `s`, step by step;
* `Reachable.run_eq` — from there it goes on to where it would have ended anyway;
* `Reachable.source_eq`, `Reachable.onBoundary` — it has not left its source, and stands between two
  characters.
-/

namespace Rill
namespace Scanner

/-- At the end of the source a pass makes no more steps. -/
inductive Reachable (source : String) (policy : Policy) : Scanner → Prop
  | start : Reachable source policy (Scanner.start source policy)
  | step {s t : Scanner} : Reachable source policy s → s.cursor.atEnd = false → s.step = .ok t →
      Reachable source policy t

/-! ## Runs and steps -/

theorem run_of_atEnd {s : Scanner} (h : s.cursor.atEnd = true) : s.run = .ok s := by
  rw [run]
  simp [h]

theorem run_of_step {s t : Scanner} (hs : s.cursor.atEnd = false) (h : s.step = .ok t) :
    s.run = t.run := by
  rw [run]
  simp only [hs, Bool.false_eq_true, ↓reduceDIte]
  -- `run` looks at the outcome of the step, which is known.
  split
  case h_1 fault hfault =>
    rw [h] at hfault
    cases hfault
  case h_2 u hu =>
    rw [h] at hu
    cases hu
    rfl

theorem source_of_step {s t : Scanner} (h : s.step = .ok t) :
    t.cursor.source = s.cursor.source := by
  -- Whatever a step takes, the cursor is only moved.
  unfold step at h
  split at h
  case h_1 =>
    cases h
    rfl
  case h_2 b hb =>
    split at h
    case isTrue =>
      cases h
      exact Cursor.source_eatWhile s.cursor Byte.isWhitespace
    case isFalse =>
      split at h
      case h_1 mark hm =>
        rw [cursor_of_takePunctuation h]
        exact Cursor.source_advance s.cursor
      case h_2 hm =>
        rw [cursor_of_takeCandidate h]
        exact Cursor.source_eatWhile s.cursor _

/-! ## What holds all the way -/

namespace Reachable

variable {source : String} {policy : Policy} {s : Scanner}

theorem run_eq (h : Reachable source policy s) : s.run = (Scanner.start source policy).run := by
  induction h with
  | start => rfl
  | step _ hend hstep ih => exact (run_of_step hend hstep).symm.trans ih

theorem source_eq (h : Reachable source policy s) : s.cursor.source = source := by
  induction h with
  | start => rfl
  | step _ _ hstep ih => exact (source_of_step hstep).trans ih

theorem onBoundary (h : Reachable source policy s) : s.cursor.OnBoundary := by
  induction h with
  | start => exact Cursor.onBoundary_start source
  | step _ _ hstep ih =>
      -- The step that is known to keep it is the step that was made.
      rcases step_onBoundary ih with ⟨t, ht, hboundary⟩
      cases Except.ok.inj (ht.symm.trans hstep)
      exact hboundary

end Reachable

end Scanner
end Rill
