import Rill.Cursor

/-!
# Boundary — moves that never leave a cursor inside a character

* `Cursor.OnBoundary c` — the cursor stands between two characters, or at an end;
* `onBoundary_advance` — stepping over an ASCII byte keeps it there;
* `onBoundary_eatWhile` — so does a run of a class that holds no byte of a multi-byte character, or
  all of them;
* `slice_eq_ok_iff`, `bytes_of_slice_eq_ok` — which slices there are, and what text they hold.
-/

namespace Rill
namespace Cursor

def OnBoundary (c : Cursor) : Prop :=
  Utf8.IsCharBoundary c.source c.pos

theorem onBoundary_start (source : String) : (start source).OnBoundary :=
  Utf8.isCharBoundary_zero source

/-! ## Moves -/

theorem onBoundary_advance {c : Cursor} {b : UInt8} (hc : c.OnBoundary)
    (h : c.current? = some b) (hb : b < 128) : c.advance.OnBoundary := by
  rw [advance_of_current? h]
  exact Utf8.isCharBoundary_succ_of_ascii hc h hb

theorem onBoundary_eatWhile_ascii {c : Cursor} {p : UInt8 → Bool} (hc : c.OnBoundary)
    (hp : ∀ b, p b = true → b < 128) : (c.eatWhile p).OnBoundary := by
  fun_induction eatWhile c p with
  | case1 c b hb hpb ih => exact ih (onBoundary_advance hc hb (hp b hpb))
  | case2 c b hb hpb => exact hc
  | case3 c hb => exact hc

theorem onBoundary_eatWhile_nonAscii {c : Cursor} {p : UInt8 → Bool} (hc : c.OnBoundary)
    (hp : ∀ b, p b = false → b < 128) : (c.eatWhile p).OnBoundary := by
  -- The run stops in front of an ASCII byte or at the end of the source, wherever it has been.
  cases h : (c.eatWhile p).current? with
  | some b =>
      have hb : p b = false := current?_eatWhile c p h
      exact Utf8.isCharBoundary_of_ascii h (hp b hb)
  | none =>
      have hle : c.source.utf8ByteSize ≤ (c.eatWhile p).pos := by
        simpa using Utf8.byteAt?_eq_none_iff.1 h
      have heq : (c.eatWhile p).pos = c.source.utf8ByteSize :=
        Nat.le_antisymm (pos_eatWhile_le hc.le_size p) hle
      unfold OnBoundary
      rw [source_eatWhile, heq]
      exact Utf8.isCharBoundary_size c.source

theorem onBoundary_eatWhile {c : Cursor} {p : UInt8 → Bool} (hc : c.OnBoundary)
    (hp : Byte.Whole p) : (c.eatWhile p).OnBoundary := by
  rcases Byte.whole_iff.1 hp with hascii | hother
  · exact onBoundary_eatWhile_ascii hc hascii
  · exact onBoundary_eatWhile_nonAscii hc hother

-- A class that tells the two bytes of a character apart stops between them.
example : ¬ Utf8.IsCharBoundary "é" ((start "é").eatWhile (· == 0xC3)).pos := by decide +kernel

theorem onBoundary_eatWhitespace {c : Cursor} (hc : c.OnBoundary) :
    c.eatWhitespace.1.OnBoundary :=
  onBoundary_eatWhile hc Byte.whole_isWhitespace

theorem onBoundary_eatCandidate {c : Cursor} (hc : c.OnBoundary) :
    c.eatCandidate.OnBoundary :=
  onBoundary_eatWhile hc Byte.whole_not_isBoundary

/-! ## Slices -/

theorem slice_eq_ok_iff {c : Cursor} {start stop : Nat} {text : String} :
    c.slice start stop = .ok text ↔
      start ≤ stop ∧ ∃ (h : Utf8.IsCharBoundary c.source start)
        (h' : Utf8.IsCharBoundary c.source stop), text = Utf8.cut c.source start stop h h' := by
  unfold slice
  split
  case isTrue h => simp [Nat.not_le.2 h]
  case isFalse h =>
    split
    case isTrue h' => simp [Nat.not_lt.1 h, h'.1, h'.2, eq_comm]
    case isFalse h' =>
      constructor
      · intro he
        cases he
      · rintro ⟨_, h1, h2, _⟩
        exact absurd ⟨h1, h2⟩ h'

theorem exists_slice_eq_ok {c : Cursor} {start stop : Nat} (h : start ≤ stop)
    (hstart : Utf8.IsCharBoundary c.source start) (hstop : Utf8.IsCharBoundary c.source stop) :
    ∃ text, c.slice start stop = .ok text :=
  ⟨_, slice_eq_ok_iff.2 ⟨h, hstart, hstop, rfl⟩⟩

theorem bytes_of_slice_eq_ok {c : Cursor} {start stop : Nat} {text : String}
    (h : c.slice start stop = .ok text) :
    Utf8.bytes text = ((Utf8.bytes c.source).drop start).take (stop - start) := by
  obtain ⟨_, hstart, hstop, rfl⟩ := slice_eq_ok_iff.1 h
  exact Utf8.bytes_cut hstart hstop

end Cursor
end Rill
