import Rill.Proofs.Reading
import Rill.Proofs.Spans

/-!
# Progress — every step of a pass goes on, and keeps what has been found

A step takes all of a gap or all of a lexeme.  So it moves the cursor to a place that no word goes
over, and adds to the lists what there is to say about a lexeme in the line that the pass has come
to.

* `Scanner.Takes s t` — what there is to take for `s`, and the state after that;
* `Scanner.exists_takes` — a step that is not at the end takes something;
* `Scanner.ReachableIn source policy n s` — the pass over `source` comes to `s` in `n` steps:
  `ReachableIn.le_pos` bounds them, `exists_ofSource_eq_finish` makes them all;
* `scan_progress` — what holds of every state of a pass, of every step, and of the whole.
-/

namespace Rill

open Utf8 Lexeme Layout

namespace LineNumber

theorem le_past (line : LineNumber) (gap : String) : line ≤ line.past gap := by
  have hlt : line.toNat < UInt32.size := line.toNat_lt
  rw [UInt32.le_iff_toNat_le, past, toNat_advance, toNat_last]
  omega

end LineNumber

/-! ## Places between words -/

namespace Lexeme

/-- A place that no word goes over is not inside one. -/
theorem WordAt.le_or_le_of_severs {before after : String} {i j : Nat}
    (h : WordAt (before ++ after) i j) (hcut : Severs before after) :
    before.utf8ByteSize ≤ i ∨ j ≤ before.utf8ByteSize := by
  by_contra hinside
  obtain ⟨hi, hj⟩ := not_or.1 hinside
  rcases hcut with hstarts | hstops
  · -- The byte in front of the place would be a byte of the word.
    rcases (starts_iff_byteAt? after).1 hstarts with hzero | ⟨b, hb, houter⟩
    · omega
    · have hinner := h.inside (before.utf8ByteSize - 1) b (by omega) (by omega) hb
      simp [Byte.isInner, hinner] at houter
  · -- And so would the byte behind it.
    rcases (stops_iff_byteAt? before).1 hstops with hsize | ⟨b, hb, houter⟩
    · have := h.le_size
      omega
    · have hinner := h.inside before.utf8ByteSize b (by omega) (by omega) hb
      simp [Byte.isInner, hinner] at houter

/-- No word goes over the end of a lexeme. -/
theorem Ends.severs {x after : String} (h : Ends x after) (before : String) :
    Severs (before ++ x) after := by
  rcases h with hmark | ⟨_, hstops⟩
  · exact Or.inl (starts_append hmark.ne_empty hmark.starts_isInner before)
  · exact Or.inr hstops

end Lexeme

namespace Scanner

variable {s t : Scanner}

/-! ## What a step takes -/

/-- All of the gap, or all of the lexeme, that stands at the cursor. -/
inductive Takes (s : Scanner) : Scanner → Prop
  | gap {before gap after : String} : s.cursor = .between before (gap ++ after) → IsGap gap →
      gap ≠ "" → Stops Byte.isWhitespace after →
      Takes s (s.moveTo (.between (before ++ gap) after) (s.line.past gap))
  | lexeme {before x after : String} : s.cursor = .between before (x ++ after) → Ends x after →
      Takes s ((s.note [⟨before, x, s.line⟩]).moveTo (.between (before ++ x) after) s.line)

theorem exists_takes (hs : s.cursor.OnBoundary) (hend : s.cursor.atEnd = false) :
    ∃ t, s.step = .ok t ∧ s.Takes t := by
  rcases Cursor.exists_eq_between hs with ⟨before, text, hcursor⟩
  have hne : text ≠ "" := by
    rintro rfl
    simp [hcursor, Cursor.atEnd_between_iff.2] at hend
  -- Either the text begins with whitespace, or a lexeme stands there.
  rcases exists_run Byte.whole_isWhitespace text with
    ⟨gap, after, rfl, hgap, hafter⟩
  by_cases hempty : gap = ""
  · subst hempty
    rw [String.empty_append] at hne hcursor
    rcases exists_ends hne hafter with ⟨x, behind, rfl, hx⟩
    exact ⟨_, step_lexeme hcursor hx, .lexeme hcursor hx⟩
  · exact ⟨_, step_gap hcursor hgap hempty hafter, .gap hcursor hgap hempty hafter⟩

namespace Takes

theorem source_eq (h : s.Takes t) : t.cursor.source = s.cursor.source := by
  cases h with
  | gap hs => simp [hs, moveTo, Cursor.between]
  | lexeme hs => simp [hs, moveTo, Cursor.between]

theorem policy_eq (h : s.Takes t) : t.policy = s.policy := by
  cases h <;> rfl

theorem pos_lt (h : s.Takes t) : s.cursor.pos < t.cursor.pos := by
  have hlonger : ∀ {before x after : String}, s.cursor = .between before (x ++ after) → x ≠ "" →
      s.cursor.pos < (Cursor.between (before ++ x) after).pos := by
    intro before x after hs hne
    have hsize : x.utf8ByteSize ≠ 0 := by simpa using hne
    simp only [hs, Cursor.between, String.utf8ByteSize_append]
    omega
  cases h with
  | gap hs _ hne => exact hlonger hs hne
  | lexeme hs hx => exact hlonger hs hx.isLexeme.ne_empty

theorem line_le (h : s.Takes t) : s.line ≤ t.line := by
  cases h with
  | gap => exact LineNumber.le_past s.line _
  | lexeme => exact UInt32.le_refl s.line

theorem severs (h : s.Takes t) :
    ∃ before after, t.cursor = .between before after ∧ Severs before after := by
  cases h with
  | gap _ hgap hne => exact ⟨_, _, rfl, Or.inl (starts_append hne (starts_of_isGap hgap) _)⟩
  | lexeme _ hx => exact ⟨_, _, rfl, hx.severs _⟩

end Takes

/-! ## Lists that only grow -/

section Growing

variable {α : Type} {lineOf : α → LineNumber} {line line' : LineNumber} {old new : List α}

/-- At most one more entry, and that one in the line `line`. -/
def Adds (lineOf : α → LineNumber) (line : LineNumber) (old new : List α) : Prop :=
  ∃ added, new = old ++ added ∧ added.length ≤ 1 ∧ ∀ a ∈ added, lineOf a = line

/-- Every entry is in a line not before those of the entries in front, and not behind `line`. -/
def InOrder (lineOf : α → LineNumber) (line : LineNumber) (entries : List α) : Prop :=
  entries.Pairwise (fun a b => lineOf a ≤ lineOf b) ∧ ∀ a ∈ entries, lineOf a ≤ line

theorem Adds.refl : Adds lineOf line old old :=
  ⟨[], by simp, by simp, by simp⟩

/-- What there is to say about a lexeme is in the line of the lexeme. -/
theorem Adds.of_filter (keep : Placed → Bool) {f : Placed → α} {q : Placed}
    (hline : lineOf (f q) = line) : Adds lineOf line old (old ++ ([q].filter keep).map f) := by
  refine ⟨([q].filter keep).map f, rfl, ?_, ?_⟩
  · rw [List.length_map]
    exact List.length_filter_le keep [q]
  · intro a ha
    rcases List.mem_map.1 ha with ⟨r, hr, rfl⟩
    rw [List.mem_singleton.1 (List.mem_of_mem_filter hr), hline]

theorem Adds.prefix_and_length_le (h : Adds lineOf line old new) :
    old <+: new ∧ new.length ≤ old.length + 1 := by
  rcases h with ⟨added, rfl, hlength, -⟩
  refine ⟨List.prefix_append old added, ?_⟩
  rw [List.length_append]
  omega

theorem InOrder.nil : InOrder lineOf line [] :=
  ⟨List.Pairwise.nil, by simp⟩

theorem InOrder.adds (h : InOrder lineOf line old) (hadds : Adds lineOf line old new)
    (hle : line ≤ line') : InOrder lineOf line' new := by
  rcases hadds with ⟨added, rfl, hlength, hadded⟩
  constructor
  · refine List.pairwise_append.2 ⟨h.1, ?_, ?_⟩
    · -- One entry alone is in order.
      match added, hlength with
      | [], _ => exact List.Pairwise.nil
      | [a], _ => exact List.pairwise_singleton _ a
    · intro a ha b hb
      rw [hadded b hb]
      exact h.2 a ha
  · intro a ha
    rcases List.mem_append.1 ha with ha | ha
    · exact UInt32.le_trans (h.2 a ha) hle
    · rw [hadded a ha]
      exact hle

end Growing

namespace Takes

theorem adds_tokens (h : s.Takes t) :
    Adds Token.line s.line s.tokens.toList t.tokens.toList := by
  cases h with
  | gap => exact Adds.refl
  | @lexeme before x =>
      have hadds : Adds Token.line s.line s.tokens.toList
          (s.tokens.toList ++ Placed.tokens s.policy [⟨before, x, s.line⟩]) := Adds.of_filter _ rfl
      simpa [moveTo, note] using hadds

theorem adds_diagnostics (h : s.Takes t) :
    Adds Diagnostic.line s.line s.diagnostics.toList t.diagnostics.toList := by
  cases h with
  | gap => exact Adds.refl
  | @lexeme before x =>
      have hadds : Adds Diagnostic.line s.line s.diagnostics.toList
          (s.diagnostics.toList ++ Placed.diagnostics [⟨before, x, s.line⟩]) := Adds.of_filter _ rfl
      simpa [moveTo, note] using hadds

end Takes

/-! ## What holds all the way -/

namespace Reachable

variable {source : String} {policy : Policy}

theorem takes_of_step (h : Reachable source policy s) (hend : s.cursor.atEnd = false)
    (hstep : s.step = .ok t) : s.Takes t := by
  rcases exists_takes h.onBoundary hend with ⟨u, hu, htakes⟩
  cases Except.ok.inj (hu.symm.trans hstep)
  exact htakes

theorem policy_eq (h : Reachable source policy s) : s.policy = policy := by
  induction h with
  | start => rfl
  | step hs hend hstep ih => exact (hs.takes_of_step hend hstep).policy_eq.trans ih

theorem first_le (h : Reachable source policy s) : LineNumber.first ≤ s.line := by
  induction h with
  | start => exact UInt32.le_refl _
  | step hs hend hstep ih => exact UInt32.le_trans ih (hs.takes_of_step hend hstep).line_le

theorem severs (h : Reachable source policy s) :
    ∃ before after, s.cursor = .between before after ∧ Severs before after := by
  cases h with
  | start => exact ⟨"", source, Cursor.start_eq_between source, Or.inl (starts_empty _)⟩
  | step hs hend hstep => exact (hs.takes_of_step hend hstep).severs

theorem atEnd_iff (h : Reachable source policy s) :
    s.cursor.atEnd = true ↔ s.cursor.pos = source.utf8ByteSize := by
  rw [Cursor.atEnd_iff_pos_eq h.onBoundary.le_size, h.source_eq]

/-- The scanner stands in front of a word, or behind it. -/
theorem le_or_le_of_wordAt (h : Reachable source policy s) {i j : Nat}
    (hword : WordAt source i j) : s.cursor.pos ≤ i ∨ j ≤ s.cursor.pos := by
  rcases h.severs with ⟨before, after, hcursor, hcut⟩
  have hsource : before ++ after = source := by
    rw [← h.source_eq, hcursor]
    rfl
  rw [← hsource] at hword
  rw [hcursor]
  exact hword.le_or_le_of_severs hcut

theorem inOrder (h : Reachable source policy s) :
    InOrder Token.line s.line s.tokens.toList ∧
      InOrder Diagnostic.line s.line s.diagnostics.toList := by
  induction h with
  | start => exact ⟨InOrder.nil, InOrder.nil⟩
  | step hs hend hstep ih =>
      have htakes := hs.takes_of_step hend hstep
      exact ⟨ih.1.adds htakes.adds_tokens htakes.line_le,
        ih.2.adds htakes.adds_diagnostics htakes.line_le⟩

end Reachable

/-! ## How many steps there are -/

/-- The pass over `source` comes to a state in that many steps. -/
inductive ReachableIn (source : String) (policy : Policy) : Nat → Scanner → Prop
  | start : ReachableIn source policy 0 (Scanner.start source policy)
  | step {n : Nat} {s t : Scanner} : ReachableIn source policy n s → s.cursor.atEnd = false →
      s.step = .ok t → ReachableIn source policy (n + 1) t

theorem reachable_iff_exists_reachableIn {source : String} {policy : Policy} :
    Reachable source policy s ↔ ∃ n, ReachableIn source policy n s := by
  constructor
  · intro h
    induction h with
    | start => exact ⟨0, .start⟩
    | step _ hend hstep ih =>
        rcases ih with ⟨n, hn⟩
        exact ⟨n + 1, hn.step hend hstep⟩
  · rintro ⟨n, hn⟩
    induction hn with
    | start => exact .start
    | step _ hend hstep ih => exact ih.step hend hstep

namespace ReachableIn

variable {source : String} {policy : Policy} {n : Nat}

theorem reachable (h : ReachableIn source policy n s) : Reachable source policy s :=
  reachable_iff_exists_reachableIn.2 ⟨n, h⟩

/-- Each step moves the cursor on by a byte at least. -/
theorem le_pos (h : ReachableIn source policy n s) : n ≤ s.cursor.pos := by
  induction h with
  | start => exact Nat.le_refl 0
  | step hs hend hstep ih =>
      exact Nat.lt_of_le_of_lt ih (hs.reachable.takes_of_step hend hstep).pos_lt

theorem le_size (h : ReachableIn source policy n s) : n ≤ source.utf8ByteSize := by
  have hpos : s.cursor.pos ≤ s.cursor.source.utf8ByteSize := h.reachable.onBoundary.le_size
  rw [h.reachable.source_eq] at hpos
  exact Nat.le_trans h.le_pos hpos

/-- The steps that are left lead to the end. -/
theorem exists_run (h : ReachableIn source policy n s) :
    ∃ m t, ReachableIn source policy m t ∧ t.cursor.atEnd = true ∧ s.run = .ok t := by
  fun_induction run s generalizing n with
  | case1 s hend => exact ⟨n, s, h, hend, rfl⟩
  | case2 s hend fault hstep =>
      rcases step_onBoundary h.reachable.onBoundary with ⟨t, ht, -⟩
      rw [ht] at hstep
      cases hstep
  | case3 s hend t hstep ih => exact ih (h.step (by simpa using hend) hstep)

end ReachableIn

/-- The pass over a source comes to the end step by step, and what it yields is closed there. -/
theorem exists_ofSource_eq_finish (source : String) (policy : Policy) :
    ∃ n t, ReachableIn source policy n t ∧ t.cursor.atEnd = true ∧
      scan source policy = .ok t.finish ∧ ofSource source policy = t.finish := by
  have hstart : ReachableIn source policy 0 (Scanner.start source policy) := .start
  rcases hstart.exists_run with ⟨n, t, hn, hend, hrun⟩
  have hscan : scan source policy = .ok t.finish := by
    rw [scan, hrun]
    rfl
  exact ⟨n, t, hn, hend, hscan, Except.ok.inj ((scan_eq_ok source policy).symm.trans hscan)⟩

/-- In every state of a pass the scanner stands within its source, between two characters, and not
inside a word; and unless it stands at the end, it takes a step, which moves it on, keeps what it
has found, and adds to that no more than a token and a diagnostic.  So a pass is over after as many
steps as the source has bytes, or fewer, and what it has found is in the order of its lines. -/
theorem scan_progress (source : String) (policy : Policy) :
    (∀ s, Reachable source policy s →
      (s.cursor.source = source ∧ s.policy = policy) ∧
      (s.cursor.pos ≤ source.utf8ByteSize ∧ IsCharBoundary source s.cursor.pos ∧
        ∀ i j, WordAt source i j → s.cursor.pos ≤ i ∨ j ≤ s.cursor.pos) ∧
      (1 ≤ s.line.toNat ∧ s.line.toNat ≤ UInt32.size - 1) ∧
      (s.cursor.pos ≠ source.utf8ByteSize →
        ∃ t, s.step = .ok t ∧ Reachable source policy t ∧
          s.cursor.pos < t.cursor.pos ∧ s.line ≤ t.line ∧
          t.cursor.source = s.cursor.source ∧ t.policy = s.policy ∧
          s.tokens.toList <+: t.tokens.toList ∧ t.tokens.size ≤ s.tokens.size + 1 ∧
          s.diagnostics.toList <+: t.diagnostics.toList ∧
          t.diagnostics.size ≤ s.diagnostics.size + 1)) ∧
    (∀ n s, ReachableIn source policy n s → n ≤ source.utf8ByteSize) ∧
    (∃ n t, ReachableIn source policy n t ∧ t.cursor.pos = source.utf8ByteSize ∧
      scan source policy = .ok t.finish) ∧
    (lex source policy).tokens.Pairwise (fun t u => t.line ≤ u.line) ∧
    (lex source policy).diagnostics.Pairwise (fun d e => d.line ≤ e.line) := by
  rcases exists_ofSource_eq_finish source policy with ⟨n, t, hn, hend, hscan, hlast⟩
  -- The end of the input comes last, in the line that the pass has come to.
  have hclosed : InOrder Token.line t.line (t.finish.tokens.toList) :=
    hn.reachable.inOrder.1.adds ⟨[Token.endOfInput t.line], by simp [finish], by simp,
      by simp [Token.endOfInput]⟩ (UInt32.le_refl t.line)
  refine ⟨?_, fun _ _ h => h.le_size, ⟨n, t, hn, hn.reachable.atEnd_iff.1 hend, hscan⟩, ?_, ?_⟩
  · intro s hs
    have hboundary : IsCharBoundary source s.cursor.pos := hs.source_eq ▸ hs.onBoundary
    refine ⟨⟨hs.source_eq, hs.policy_eq⟩, ⟨hboundary.le_size, hboundary, ?_⟩,
      ⟨hs.first_le, Nat.le_of_lt_succ s.line.toNat_lt⟩, ?_⟩
    · intro i j hword
      exact hs.le_or_le_of_wordAt hword
    · intro hpos
      have hmore : s.cursor.atEnd = false := Bool.eq_false_iff.2 fun h => hpos (hs.atEnd_iff.1 h)
      rcases exists_takes hs.onBoundary hmore with ⟨u, hstep, htakes⟩
      have htokens := htakes.adds_tokens.prefix_and_length_le
      have hdiagnostics := htakes.adds_diagnostics.prefix_and_length_le
      exact ⟨u, hstep, hs.step hmore hstep, htakes.pos_lt, htakes.line_le, htakes.source_eq,
        htakes.policy_eq, htokens.1, htokens.2, hdiagnostics.1, hdiagnostics.2⟩
  · simpa [lex, lexWithLog, hlast] using hclosed.1
  · simpa [lex, lexWithLog, hlast, finish] using hn.reachable.inOrder.2.1

end Scanner
end Rill
