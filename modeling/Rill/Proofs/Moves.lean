import Rill.Cursor.Boundary
import Rill.Proofs.Words

/-!
# Moves — where a cursor can be moved to

A cursor only moves forward, and never out of its source.  Where a move leads is told by the bytes
of the source and by the place it begins at, which may be inside a character.

* `Utf8.RunAt source p i j` — a run of the class `p` that begins at `i` is over at `j`, said byte by
  byte and with no mention of a cursor: `RunAt.unique` says that it is over at one place only;
* `Cursor.Move` — the moves; `Move.apply`, what is done, and `Move.Leads`, where it leads;
* `Move.leads_iff` — the one place that a move leads to is where the cursor is after it;
* `Cursor.go` — moves one after the other: `within_go` is what they all keep;
* `Cursor.go_leads` — all there is to say about cursors that are moved from the start of a source;
* `Cursor.slice_eatWhile_whole` — runs that tear no character apart, and the texts they run over.
-/

namespace Rill

open Utf8

/-! ## Runs between two offsets -/

namespace Utf8

/-- From `i` up to `j` stand bytes of the class `p`, and at `j` there are no more of them. -/
structure RunAt (source : String) (p : UInt8 → Bool) (i j : Nat) : Prop where
  le : i ≤ j
  inside : ∀ k, i ≤ k → k < j → ∃ b, byteAt? source k = some b ∧ p b = true
  last : j = source.utf8ByteSize ∨ ∃ b, byteAt? source j = some b ∧ p b = false

namespace RunAt

variable {source : String} {p : UInt8 → Bool} {i j k : Nat}

theorem stop (h : i = source.utf8ByteSize ∨ ∃ b, byteAt? source i = some b ∧ p b = false) :
    RunAt source p i i :=
  ⟨Nat.le_refl i, fun _ hle hlt => absurd hlt (Nat.not_lt.2 hle), h⟩

theorem step {b : UInt8} (hb : byteAt? source i = some b) (hp : p b = true)
    (h : RunAt source p (i + 1) j) : RunAt source p i j := by
  refine ⟨Nat.le_of_succ_le h.le, ?_, h.last⟩
  intro k hle hlt
  rcases Nat.eq_or_lt_of_le hle with rfl | hbehind
  · exact ⟨b, hb, hp⟩
  · exact h.inside k hbehind hlt

theorem le_size (h : RunAt source p i j) : j ≤ source.utf8ByteSize := by
  rcases h.last with rfl | ⟨b, hb, _⟩
  · exact Nat.le_refl _
  · exact Nat.le_of_lt (lt_of_byteAt?_eq_some hb)

/-- No run goes on over the place where another one from `i` is over. -/
theorem le_of_runAt (h : RunAt source p i j) (h' : RunAt source p i k) : k ≤ j := by
  rcases h.last with rfl | ⟨b, hb, hstop⟩
  · exact h'.le_size
  · refine Nat.le_of_not_lt fun hlt => ?_
    -- The byte that stops the one run would be inside the other.
    rcases h'.inside j h.le hlt with ⟨b', hb', hp⟩
    obtain rfl : b = b' := Option.some.inj (hb.symm.trans hb')
    rw [hstop] at hp
    cases hp

theorem unique (h : RunAt source p i j) (h' : RunAt source p i k) : j = k :=
  Nat.le_antisymm (h'.le_of_runAt h) (h.le_of_runAt h')

end RunAt

end Utf8

namespace Cursor

variable {source : String} {c : Cursor}

theorem runAt_eatWhile {p : UInt8 → Bool} (h : c.pos ≤ c.source.utf8ByteSize) :
    RunAt c.source p c.pos (c.eatWhile p).pos := by
  fun_induction eatWhile c p with
  | case1 c b hb hp ih =>
      have hlt := lt_of_current?_eq_some hb
      rw [advance_of_current? hb] at ih ⊢
      exact (ih hlt).step hb hp
  | case2 c b hb hp => exact .stop (Or.inr ⟨b, hb, by simpa using hp⟩)
  | case3 c hb => exact .stop (Or.inl (Nat.le_antisymm h (byteAt?_eq_none_iff.1 hb)))

/-- The line ends on the way over whitespace, as far as 32 bits can count them. -/
theorem toNat_eatWhitespace (c : Cursor) :
    c.eatWhitespace.2.toNat =
      (((bytes c.source).drop c.pos).take (c.eatWhitespace.1.pos - c.pos)).count Byte.newline
        % UInt32.size := by
  simp only [eatWhitespace, UInt32.toNat_ofNat', newlinesTo_eq_count, rest]

/-! ## Moves -/

inductive Move
  | advance
  | eatWhile (p : UInt8 → Bool)
  | eatWhitespace
  | eatCandidate

/-- The cursor stands in `source`, or at its end; it may be inside a character. -/
structure Within (source : String) (c : Cursor) : Prop where
  source_eq : c.source = source
  le_size : c.pos ≤ source.utf8ByteSize

theorem Within.atEnd_iff (h : c.Within source) :
    c.atEnd = true ↔ c.pos = source.utf8ByteSize := by
  rcases h with ⟨rfl, hle⟩
  exact atEnd_iff_pos_eq hle

namespace Move

def apply : Move → Cursor → Cursor
  | advance, c => c.advance
  | eatWhile p, c => c.eatWhile p
  | eatWhitespace, c => c.eatWhitespace.1
  | eatCandidate, c => c.eatCandidate

/-- The class of bytes that a move runs over, if it is a run and no single step. -/
def class? : Move → Option (UInt8 → Bool)
  | advance => none
  | eatWhile p => some p
  | eatWhitespace => some Byte.isWhitespace
  | eatCandidate => some Byte.isInner

/-- From `i` the move leads to `j`: a step past one byte, if there is one, and a run to where it is
over. -/
def Leads (source : String) (m : Move) (i j : Nat) : Prop :=
  match m.class? with
  | none => j = min (i + 1) source.utf8ByteSize
  | some p => RunAt source p i j

theorem apply_eq (m : Move) (c : Cursor) :
    m.apply c = match m.class? with
      | none => c.advance
      | some p => c.eatWhile p := by
  cases m <;> rfl

theorem source_apply (m : Move) (c : Cursor) : (m.apply c).source = c.source := by
  rw [apply_eq]
  cases m.class? with
  | none => exact source_advance c
  | some p => exact source_eatWhile c p

theorem leads_apply (m : Move) (h : c.Within source) : m.Leads source c.pos (m.apply c).pos := by
  rcases h with ⟨rfl, hle⟩
  rw [Leads, apply_eq]
  cases m.class? with
  | none =>
      show c.advance.pos = min (c.pos + 1) c.source.utf8ByteSize
      unfold Cursor.advance
      split
      case isTrue hlt => exact (Nat.min_eq_left hlt).symm
      case isFalse hge => omega
  | some p => exact runAt_eatWhile hle

namespace Leads

variable {m : Move} {i j k : Nat}

theorem unique (h : m.Leads source i j) (h' : m.Leads source i k) : j = k := by
  unfold Leads at h h'
  cases hm : m.class? with
  | none =>
      rw [hm] at h h'
      exact h.trans h'.symm
  | some p =>
      rw [hm] at h h'
      exact h.unique h'

theorem le (h : m.Leads source i j) (hi : i ≤ source.utf8ByteSize) : i ≤ j := by
  unfold Leads at h
  split at h
  case h_1 =>
    rw [h]
    exact Nat.le_min.2 ⟨Nat.le_succ i, hi⟩
  case h_2 => exact h.le

theorem le_size (h : m.Leads source i j) : j ≤ source.utf8ByteSize := by
  unfold Leads at h
  split at h
  case h_1 =>
    rw [h]
    exact Nat.min_le_right _ _
  case h_2 => exact h.le_size

end Leads

theorem leads_iff {m : Move} {j : Nat} (h : c.Within source) :
    m.Leads source c.pos j ↔ j = (m.apply c).pos :=
  ⟨fun hj => hj.unique (m.leads_apply h), fun hj => hj ▸ m.leads_apply h⟩

theorem within_apply (m : Move) (h : c.Within source) : (m.apply c).Within source :=
  ⟨(m.source_apply c).trans h.source_eq, (m.leads_apply h).le_size⟩

end Move

/-! ## Moves one after the other -/

def go (c : Cursor) (moves : List Move) : Cursor :=
  moves.foldl (fun c m => m.apply c) c

theorem go_concat (c : Cursor) (moves : List Move) (m : Move) :
    c.go (moves ++ [m]) = m.apply (c.go moves) := by
  simp [go]

theorem within_start (source : String) : (start source).Within source :=
  ⟨rfl, Nat.zero_le _⟩

theorem within_go (moves : List Move) (h : c.Within source) : (c.go moves).Within source := by
  induction moves generalizing c with
  | nil => exact h
  | cons m moves ih => exact ih (m.within_apply h)

/-- Whatever moves are made from the start of a source, the cursor stays in that source, and knows
whether it is at the end.  The next move never goes back, and leads to the one place that the bytes
from the cursor on tell; and the line ends on the way over whitespace are counted in 32 bits. -/
theorem go_leads (source : String) (moves : List Move) :
    let c := (start source).go moves
    (c.source = source ∧ c.pos ≤ source.utf8ByteSize) ∧
    (c.current? = none ↔ c.atEnd = true) ∧
    (c.atEnd = true ↔ c.pos = source.utf8ByteSize) ∧
    (∀ m : Move,
      (start source).go (moves ++ [m]) = m.apply c ∧
      c.pos ≤ (m.apply c).pos ∧
      ∀ j, m.Leads source c.pos j ↔ j = (m.apply c).pos) ∧
    c.eatWhitespace.2.toNat =
      (((bytes source).drop c.pos).take (c.eatWhitespace.1.pos - c.pos)).count Byte.newline
        % UInt32.size := by
  intro c
  have hc : c.Within source := within_go moves (within_start source)
  refine ⟨⟨hc.source_eq, hc.le_size⟩, (atEnd_iff_current?_eq_none c).symm, hc.atEnd_iff, ?_, ?_⟩
  · intro m
    exact ⟨go_concat _ moves m, (m.leads_apply hc).le hc.le_size, fun j => Move.leads_iff hc⟩
  · rw [← hc.source_eq]
    exact toNat_eatWhitespace c

/-! ## Moves and characters -/

/-- A run of a class that tears no character apart leads from a place between characters to another
one, and what it runs over is a text; and so does a step over an ASCII byte. -/
theorem slice_eatWhile_whole (c : Cursor) (hc : c.OnBoundary) :
    (∀ p, Byte.Whole p →
      RunAt c.source p c.pos (c.eatWhile p).pos ∧ (c.eatWhile p).OnBoundary ∧
      ∃ text, (c.eatWhile p).slice c.pos (c.eatWhile p).pos = .ok text ∧
        bytes text = ((bytes c.source).drop c.pos).take ((c.eatWhile p).pos - c.pos)) ∧
    ∀ b, c.current? = some b → b < 128 →
      c.advance.pos = c.pos + 1 ∧ c.advance.OnBoundary := by
  constructor
  · intro p hp
    have hrun : RunAt c.source p c.pos (c.eatWhile p).pos := runAt_eatWhile hc.le_size
    have hafter : (c.eatWhile p).OnBoundary := onBoundary_eatWhile hc hp
    -- The cut begins where the cursor was, which is the same place of the same source.
    have hbefore : IsCharBoundary (c.eatWhile p).source c.pos := by
      rw [source_eatWhile]
      exact hc
    rcases exists_slice_eq_ok hrun.le hbefore hafter with ⟨text, htext⟩
    refine ⟨hrun, hafter, text, htext, ?_⟩
    rw [bytes_of_slice_eq_ok htext, source_eatWhile]
  · intro b hb hascii
    exact ⟨by rw [advance_of_current? hb], onBoundary_advance hc hb hascii⟩

/-- Behind one character of two bytes, a run over another one of three. -/
theorem slice_eatWhile_whole_behind_accent :
    (Cursor.mk "éa€;" 2).OnBoundary ∧ Byte.Whole Byte.isInner ∧
    (Cursor.mk "éa€;" 2).current? = some 97 ∧ (97 : UInt8) < 128 ∧
    ((Cursor.mk "éa€;" 2).eatWhile Byte.isInner).OnBoundary ∧
    ((Cursor.mk "éa€;" 2).eatWhile Byte.isInner).slice 2 6 = .ok "a€" ∧
    (Cursor.mk "éa€;" 2).advance.OnBoundary := by
  have hc : (Cursor.mk "éa€;" 2).OnBoundary := by
    unfold OnBoundary
    decide
  have hcurrent : (Cursor.mk "éa€;" 2).current? = some 97 := by decide
  have hpos : ((Cursor.mk "éa€;" 2).eatWhile Byte.isInner).pos = 6 := by
    rw [pos_eatWhile]
    decide
  rcases slice_eatWhile_whole _ hc with ⟨hruns, hstep⟩
  rcases hruns Byte.isInner Byte.whole_isInner with ⟨-, hafter, text, hslice, hbytes⟩
  rw [hpos] at hslice hbytes
  have htext : text = "a€" := bytes_inj.1 (hbytes.trans (by decide))
  have hadvance := hstep 97 hcurrent (by decide)
  refine ⟨hc, Byte.whole_isInner, hcurrent, by decide, hafter, ?_, hadvance.2⟩
  rw [← htext]
  exact hslice

end Cursor
end Rill
