/-!
# Byte — the classes of bytes that the lexer tells apart

Every class holds ASCII bytes only, so a byte of a multi-byte character belongs to none of them.

* `Byte.isWhitespace`, `Byte.isPunctuation` — what separates lexemes, and what is one by itself;
* `Byte.isBoundary` — either of the two: no word contains such a byte;
* `Byte.isDigit`, `Byte.isLower`, `Byte.isWord` — what integers and identifiers are made of;
* `Byte.Whole p` — the class `p` has all bytes of multi-byte characters, or none of them.
-/

namespace Rill
namespace Byte

/-! ## Separators -/

/-- The byte that ends a line. -/
def newline : UInt8 := 10

/-- A space, or one of the control bytes from tab to carriage return. -/
def isWhitespace (b : UInt8) : Bool :=
  b == 32 || (9 ≤ b && b ≤ 13)

def isPunctuation (b : UInt8) : Bool :=
  b == 59 || b == 61 || b == 40 || b == 41 || b == 43

def isBoundary (b : UInt8) : Bool :=
  isWhitespace b || isPunctuation b

/-! ## Parts of words -/

def isDigit (b : UInt8) : Bool :=
  48 ≤ b && b ≤ 57

def isLower (b : UInt8) : Bool :=
  97 ≤ b && b ≤ 122

def isUpper (b : UInt8) : Bool :=
  65 ≤ b && b ≤ 90

/-- A letter, a digit or an underscore. -/
def isWord (b : UInt8) : Bool :=
  isLower b || isUpper b || isDigit b || b == 95

/-! ## Every separator is ASCII -/

theorem lt_128_of_isWhitespace {b : UInt8} (h : isWhitespace b = true) : b < 128 := by
  simp only [isWhitespace, Bool.or_eq_true, beq_iff_eq, Bool.and_eq_true, decide_eq_true_eq,
    UInt8.le_iff_toNat_le, UInt8.lt_iff_toNat_lt] at *
  rcases h with rfl | h
  · decide
  · have : (13 : UInt8).toNat = 13 := rfl
    have : (128 : UInt8).toNat = 128 := rfl
    omega

/-- What holds of each of the five bytes holds of the class. -/
theorem of_isPunctuation {p : UInt8 → Prop} {b : UInt8} (h : isPunctuation b = true)
    (hmarks : p 59 ∧ p 61 ∧ p 40 ∧ p 41 ∧ p 43) : p b := by
  simp only [isPunctuation, Bool.or_eq_true, beq_iff_eq] at h
  rcases hmarks with ⟨h59, h61, h40, h41, h43⟩
  rcases h with (((rfl | rfl) | rfl) | rfl) | rfl <;> assumption

theorem lt_128_of_isPunctuation {b : UInt8} (h : isPunctuation b = true) : b < 128 :=
  of_isPunctuation (p := (· < 128)) h (by decide)

theorem lt_128_of_isBoundary {b : UInt8} (h : isBoundary b = true) : b < 128 := by
  rcases Bool.or_eq_true_iff.1 h with h | h
  · exact lt_128_of_isWhitespace h
  · exact lt_128_of_isPunctuation h

/-! ## Classes and multi-byte characters -/

/-- A class that gives the same answer on all bytes of multi-byte characters. -/
def Whole (p : UInt8 → Bool) : Prop :=
  ∀ b b', 128 ≤ b → 128 ≤ b' → p b = p b'

theorem whole_iff {p : UInt8 → Bool} :
    Whole p ↔ (∀ b, p b = true → b < 128) ∨ ∀ b, p b = false → b < 128 := by
  constructor
  · intro h
    -- What the class says of one byte that is not ASCII it says of all.
    cases hp : p 128 with
    | false =>
        refine Or.inl fun b hb => UInt8.not_le.1 fun hle => ?_
        simp [h b 128 hle (UInt8.le_refl 128), hp] at hb
    | true =>
        refine Or.inr fun b hb => UInt8.not_le.1 fun hle => ?_
        simp [h b 128 hle (UInt8.le_refl 128), hp] at hb
  · rintro (hascii | hother) b b' hb hb'
    · have hnone : ∀ x, 128 ≤ x → p x = false := fun x hx =>
        Bool.eq_false_iff.2 fun htrue => UInt8.not_le.2 (hascii x htrue) hx
      rw [hnone b hb, hnone b' hb']
    · have hall : ∀ x, 128 ≤ x → p x = true := fun x hx =>
        Bool.ne_false_iff.1 fun hfalse => UInt8.not_le.2 (hother x hfalse) hx
      rw [hall b hb, hall b' hb']

theorem whole_isWhitespace : Whole isWhitespace :=
  whole_iff.2 (Or.inl fun _ => lt_128_of_isWhitespace)

theorem whole_not_isBoundary : Whole fun b => !isBoundary b :=
  whole_iff.2 (Or.inr fun _ h => lt_128_of_isBoundary (by simpa using h))

end Byte
end Rill
