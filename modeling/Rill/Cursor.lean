import Rill.Byte
import Rill.Utf8

/-!
# Cursor — a position in a source that moves by bytes

A cursor can stand inside a character; cutting the source there is refused.

* `Cursor` — a source and a byte offset;
* `Cursor.rest` — the bytes from the cursor on: the view that the lemmas below speak of;
* `advance`, `eatWhile`, `eatWhitespace`, `eatCandidate` — moves, each with its effect on `rest`;
* `Cursor.slice` — the text between two offsets, or the reason why there is none.
-/

namespace Rill

structure Cursor where
  source : String
  pos : Nat
  deriving DecidableEq, Repr

/-- Why a source has no text between two offsets: they are out of order, or one of them is not
between two characters. -/
inductive SliceFault
  | startAfterStop (start stop : Nat)
  | offBoundary
  deriving DecidableEq, Repr

namespace Cursor

def start (source : String) : Cursor :=
  ⟨source, 0⟩

/-! ## Looking -/

def current? (c : Cursor) : Option UInt8 :=
  Utf8.byteAt? c.source c.pos

def atEnd (c : Cursor) : Bool :=
  c.source.utf8ByteSize ≤ c.pos

def remaining (c : Cursor) : Nat :=
  c.source.utf8ByteSize - c.pos

def rest (c : Cursor) : List UInt8 :=
  (Utf8.bytes c.source).drop c.pos

def slice (c : Cursor) (start stop : Nat) : Except SliceFault String :=
  if stop < start then
    .error (.startAfterStop start stop)
  else if h : Utf8.IsCharBoundary c.source start ∧ Utf8.IsCharBoundary c.source stop then
    .ok (Utf8.cut c.source start stop h.1 h.2)
  else
    .error .offBoundary

def sliceFrom (c : Cursor) (start : Nat) : Except SliceFault String :=
  c.slice start c.pos

theorem current?_eq_head? (c : Cursor) : c.current? = c.rest.head? := by
  simp [current?, rest, Utf8.byteAt?_eq_getElem?, List.head?_drop]

theorem lt_of_current?_eq_some {c : Cursor} {b : UInt8} (h : c.current? = some b) :
    c.pos < c.source.utf8ByteSize :=
  Utf8.lt_of_byteAt?_eq_some h

theorem atEnd_iff_current?_eq_none (c : Cursor) : c.atEnd = true ↔ c.current? = none := by
  simp [atEnd, current?, Utf8.byteAt?_eq_none_iff]

theorem atEnd_iff_pos_eq {c : Cursor} (h : c.pos ≤ c.source.utf8ByteSize) :
    c.atEnd = true ↔ c.pos = c.source.utf8ByteSize := by
  rw [atEnd, decide_eq_true_iff]
  exact ⟨Nat.le_antisymm h, fun heq => Nat.le_of_eq heq.symm⟩

@[simp]
theorem length_rest (c : Cursor) : c.rest.length = c.remaining := by
  simp [rest, remaining]

/-! ## Moving -/

/-- At the end of the source the cursor stays where it is. -/
def advance (c : Cursor) : Cursor :=
  if c.pos < c.source.utf8ByteSize then { c with pos := c.pos + 1 } else c

theorem advance_of_current? {c : Cursor} {b : UInt8} (h : c.current? = some b) :
    c.advance = { c with pos := c.pos + 1 } := by
  simp [advance, lt_of_current?_eq_some h]

@[simp]
theorem source_advance (c : Cursor) : c.advance.source = c.source := by
  unfold advance
  split <;> rfl

theorem remaining_advance_lt {c : Cursor} {b : UInt8} (h : c.current? = some b) :
    c.advance.remaining < c.remaining := by
  have := lt_of_current?_eq_some h
  rw [advance_of_current? h]
  simp only [remaining]
  omega

theorem rest_of_current? {c : Cursor} {b : UInt8} (h : c.current? = some b) :
    c.rest = b :: c.advance.rest := by
  rw [advance_of_current? h]
  simp only [rest]
  have hb : (Utf8.bytes c.source)[c.pos]? = some b := by
    rw [← Utf8.byteAt?_eq_getElem?]
    exact h
  obtain ⟨hlt, hget⟩ := List.getElem?_eq_some_iff.1 hb
  rw [List.drop_eq_getElem_cons hlt, hget]

/-! ## Runs -/

/-- Moves on as long as the current byte satisfies `p`. -/
def eatWhile (c : Cursor) (p : UInt8 → Bool) : Cursor :=
  match _hb : c.current? with
  | some b => if p b then c.advance.eatWhile p else c
  | none => c
termination_by c.remaining
decreasing_by exact remaining_advance_lt _hb

/-- How many line ends lie between the cursor and the offset `stop`. -/
def newlinesTo (c : Cursor) (stop : Nat) : Nat :=
  (List.range' c.pos (stop - c.pos)).countP fun i =>
    Utf8.byteAt? c.source i == some Byte.newline

/-- Moves past whitespace, and counts the line ends on the way in 32 bits. -/
def eatWhitespace (c : Cursor) : Cursor × UInt32 :=
  let d := c.eatWhile Byte.isWhitespace
  (d, UInt32.ofNat (c.newlinesTo d.pos))

/-- Moves past the bytes of a word. -/
def eatCandidate (c : Cursor) : Cursor :=
  c.eatWhile fun b => !Byte.isBoundary b

@[simp]
theorem source_eatWhile (c : Cursor) (p : UInt8 → Bool) : (c.eatWhile p).source = c.source := by
  fun_induction eatWhile c p with
  | case1 c b hb hp ih => rw [ih, source_advance]
  | case2 c b hb hp => rfl
  | case3 c hb => rfl

@[simp]
theorem rest_eatWhile (c : Cursor) (p : UInt8 → Bool) :
    (c.eatWhile p).rest = c.rest.dropWhile p := by
  fun_induction eatWhile c p with
  | case1 c b hb hp ih => rw [ih, rest_of_current? hb, List.dropWhile_cons_of_pos hp]
  | case2 c b hb hp => rw [rest_of_current? hb, List.dropWhile_cons_of_neg hp]
  | case3 c hb =>
      have : c.rest = [] := by simpa [current?_eq_head?] using hb
      rw [this, List.dropWhile_nil]

@[simp]
theorem pos_eatWhile (c : Cursor) (p : UInt8 → Bool) :
    (c.eatWhile p).pos = c.pos + (c.rest.takeWhile p).length := by
  fun_induction eatWhile c p with
  | case1 c b hb hp ih =>
      have hpos : c.advance.pos = c.pos + 1 := by rw [advance_of_current? hb]
      rw [ih, rest_of_current? hb, List.takeWhile_cons_of_pos hp, hpos, List.length_cons]
      omega
  | case2 c b hb hp => rw [rest_of_current? hb, List.takeWhile_cons_of_neg hp]; rfl
  | case3 c hb =>
      have : c.rest = [] := by simpa [current?_eq_head?] using hb
      rw [this]; rfl

theorem pos_eatWhile_le {c : Cursor} (h : c.pos ≤ c.source.utf8ByteSize) (p : UInt8 → Bool) :
    (c.eatWhile p).pos ≤ c.source.utf8ByteSize := by
  have hrun := (List.takeWhile_prefix p (l := c.rest)).length_le
  rw [length_rest, remaining] at hrun
  rw [pos_eatWhile]
  omega

/-- A run stops at the end of the source or at a byte outside its class. -/
theorem current?_eatWhile (c : Cursor) (p : UInt8 → Bool) {b : UInt8}
    (h : (c.eatWhile p).current? = some b) : p b = false := by
  rw [current?_eq_head?, rest_eatWhile] at h
  have := List.head?_dropWhile_not p c.rest
  rw [h] at this
  simpa using this

theorem remaining_eatWhile_le (c : Cursor) (p : UInt8 → Bool) :
    (c.eatWhile p).remaining ≤ c.remaining := by
  simp only [remaining, source_eatWhile, pos_eatWhile]
  omega

/-- A run that begins with a byte of its class moves the cursor. -/
theorem remaining_eatWhile_lt {c : Cursor} {p : UInt8 → Bool} {b : UInt8}
    (h : c.current? = some b) (hp : p b = true) : (c.eatWhile p).remaining < c.remaining := by
  rw [eatWhile]
  split
  case h_1 b' hb' =>
    obtain rfl : b = b' := Option.some.inj (h.symm.trans hb')
    rw [if_pos hp]
    exact Nat.lt_of_le_of_lt (remaining_eatWhile_le _ p) (remaining_advance_lt h)
  case h_2 hn => rw [h] at hn; cases hn

theorem countP_range'_getElem? (bs : List UInt8) (b : UInt8) (i n : Nat) :
    (List.range' i n).countP (fun j => bs[j]? == some b) = ((bs.drop i).take n).count b := by
  induction n generalizing i with
  | zero => simp
  | succ n ih =>
      rw [List.range'_succ, List.countP_cons, ih (i + 1)]
      by_cases h : i < bs.length
      · rw [List.drop_eq_getElem_cons h, List.take_succ_cons, List.count_cons]
        simp [List.getElem?_eq_getElem h]
      · -- Behind the end there is nothing to count on either side.
        simp [List.drop_eq_nil_of_le (Nat.not_lt.1 h), List.getElem?_eq_none (Nat.not_lt.1 h),
          List.drop_eq_nil_of_le (Nat.le_succ_of_le (Nat.not_lt.1 h))]

theorem newlinesTo_eq_count (c : Cursor) (stop : Nat) :
    c.newlinesTo stop = (c.rest.take (stop - c.pos)).count Byte.newline := by
  simp only [newlinesTo, Utf8.byteAt?_eq_getElem?, rest]
  exact countP_range'_getElem? _ _ _ _

end Cursor

end Rill
