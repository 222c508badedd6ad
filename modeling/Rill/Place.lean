/-!
# Place — where something stands in a source

* `LineNumber` — a 32-bit number, 1 for the first line of a source;
* `LineNumber.advance` — the number some lines further on; `toNat_advance` says that it is the sum,
  or the largest number where the sum does not fit;
* `Span` — a range of byte offsets, from `start` up to, and without, `stop`;
* `Span.size?` — how many bytes it covers, where its ends are in order.
-/

namespace Rill

/-! ## Lines -/

abbrev LineNumber := UInt32

namespace LineNumber

def first : LineNumber := 1

def last : LineNumber := 4294967295

@[simp]
theorem toNat_last : last.toNat = UInt32.size - 1 := rfl

def advance (line : LineNumber) (count : UInt32) : LineNumber :=
  if line.toNat + count.toNat < UInt32.size then line + count else last

theorem toNat_advance (line : LineNumber) (count : UInt32) :
    (line.advance count).toNat = min (line.toNat + count.toNat) last.toNat := by
  unfold advance
  split
  case isTrue h =>
    rw [UInt32.toNat_add, Nat.mod_eq_of_lt h, toNat_last]
    omega
  case isFalse h =>
    rw [toNat_last]
    omega

/-- The decimal digits of a line number. -/
def render (line : LineNumber) : String :=
  toString line.toNat

end LineNumber

/-! ## Ranges -/

structure Span where
  start : Nat
  stop : Nat
  deriving DecidableEq, Repr

namespace Span

def size? (s : Span) : Option Nat :=
  if s.start ≤ s.stop then some (s.stop - s.start) else none

def isEmpty (s : Span) : Bool :=
  s.start == s.stop

def render (s : Span) : String :=
  toString s.start ++ ".." ++ toString s.stop

end Span

end Rill
