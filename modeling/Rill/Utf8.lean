/-!
# Utf8 — texts as bytes

Positions in a source are byte offsets into its UTF-8 form.

* `Utf8.bytes s` — the bytes of `s`;
* `Utf8.byteAt? s i` — the byte at offset `i`, read in constant time; `byteAt?_eq_getElem?` says
  that it is the `i`-th of `bytes s`;
* `Utf8.IsCharBoundary s i` — offset `i` lies between two characters of `s`, or at an end.  It does
  wherever an ASCII byte stands (`isCharBoundary_of_ascii`), and also right behind one
  (`isCharBoundary_succ_of_ascii`);
* `Utf8.cut s i j` — the text between two such offsets.
-/

namespace Rill
namespace Utf8

def bytes (s : String) : List UInt8 :=
  s.toByteArray.data.toList

def byteAt? (s : String) (i : Nat) : Option UInt8 :=
  if h : i < s.utf8ByteSize then some (s.getUTF8Byte ⟨i⟩ h) else none

def IsCharBoundary (s : String) (i : Nat) : Prop :=
  String.Pos.Raw.IsValid s ⟨i⟩

instance (s : String) (i : Nat) : Decidable (IsCharBoundary s i) :=
  inferInstanceAs (Decidable (String.Pos.Raw.IsValid s ⟨i⟩))

def cut (s : String) (i j : Nat) (hi : IsCharBoundary s i) (hj : IsCharBoundary s j) : String :=
  s.extract ⟨⟨i⟩, hi⟩ ⟨⟨j⟩, hj⟩

/-! ## Reading bytes -/

@[simp]
theorem length_bytes (s : String) : (bytes s).length = s.utf8ByteSize := by
  rw [← String.size_toByteArray]
  rfl

theorem byteAt?_eq_getElem? (s : String) (i : Nat) : byteAt? s i = (bytes s)[i]? := by
  unfold byteAt?
  split
  case isTrue h =>
    have h' : i < (bytes s).length := by simpa using h
    rw [List.getElem?_eq_getElem h']
    rfl
  case isFalse h =>
    have h' : (bytes s).length ≤ i := by simpa using h
    rw [List.getElem?_eq_none h']

theorem lt_of_byteAt?_eq_some {s : String} {i : Nat} {b : UInt8} (h : byteAt? s i = some b) :
    i < s.utf8ByteSize := by
  unfold byteAt? at h
  split at h
  · assumption
  · cases h

theorem byteAt?_eq_none_iff {s : String} {i : Nat} :
    byteAt? s i = none ↔ s.utf8ByteSize ≤ i := by
  simp [byteAt?]

/-! ## Character boundaries -/

@[simp]
theorem isCharBoundary_zero (s : String) : IsCharBoundary s 0 :=
  String.Pos.Raw.isValid_zero

@[simp]
theorem isCharBoundary_size (s : String) : IsCharBoundary s s.utf8ByteSize :=
  String.Pos.Raw.isValid_rawEndPos

theorem IsCharBoundary.le_size {s : String} {i : Nat} (h : IsCharBoundary s i) :
    i ≤ s.utf8ByteSize :=
  String.Pos.Raw.IsValid.le_utf8ByteSize h

/-- The top bit of an ASCII byte is clear. -/
theorem and_0x80_of_ascii {b : UInt8} (h : b < 128) : b &&& 0x80 = 0 := by
  have h' : b.toNat < 2 ^ 7 := UInt8.lt_iff_toNat_lt.1 h
  rw [← UInt8.toNat_inj, UInt8.toNat_and]
  -- Bit 7 is the only one of the mask, and an ASCII byte does not have it.
  apply Nat.eq_of_testBit_eq
  intro i
  show (b.toNat &&& 2 ^ 7).testBit i = Nat.testBit 0 i
  simp only [Nat.testBit_and, Nat.testBit_two_pow, Nat.zero_testBit]
  by_cases hi : 7 = i
  · subst hi
    simp [Nat.testBit_lt_two_pow h']
  · simp [hi]

theorem isCharBoundary_of_ascii {s : String} {i : Nat} {b : UInt8}
    (h : byteAt? s i = some b) (hb : b < 128) : IsCharBoundary s i := by
  have hi := lt_of_byteAt?_eq_some h
  have hbyte : s.getUTF8Byte ⟨i⟩ hi = b := by
    simpa [byteAt?, hi] using h
  refine String.Pos.Raw.isValid_iff_isUTF8FirstByte.2 (Or.inr ⟨hi, Or.inl ?_⟩)
  rw [hbyte]
  exact and_0x80_of_ascii hb

theorem isCharBoundary_succ_of_ascii {s : String} {i : Nat} {b : UInt8}
    (hs : IsCharBoundary s i) (h : byteAt? s i = some b) (hb : b < 128) :
    IsCharBoundary s (i + 1) := by
  have hi := lt_of_byteAt?_eq_some h
  have hbyte : s.getUTF8Byte ⟨i⟩ hi = b := by
    simpa [byteAt?, hi] using h
  -- The character at `i` is its first byte and nothing more, so the next one is at `i + 1`.
  let p : s.Pos := ⟨⟨i⟩, hs⟩
  have hp : p ≠ s.endPos := by
    intro he
    have := congrArg (fun q : s.Pos => q.offset.byteIdx) he
    simp [p] at this
    omega
  have hpb : p.byte hp = b := by
    rw [← hbyte, ← String.Pos.getUTF8Byte_offset]
  have hone : (p.get hp).utf8Size = 1 := by
    rw [← String.Pos.utf8ByteSize_byte]
    simp [UInt8.utf8ByteSize, hpb, and_0x80_of_ascii hb]
  have hnext : (p.next hp).offset = ⟨i + 1⟩ := by
    apply String.Pos.Raw.ext
    rw [String.Pos.byteIdx_offset_next, hone]
  have hvalid := (p.next hp).isValid
  rwa [hnext] at hvalid

/-! ## Cutting -/

theorem bytes_cut {s : String} {i j : Nat} (hi : IsCharBoundary s i) (hj : IsCharBoundary s j) :
    bytes (cut s i j hi hj) = ((bytes s).drop i).take (j - i) := by
  simp only [bytes, cut, String.toByteArray_extract, ByteArray.data_extract, Array.toList_extract]

end Utf8
end Rill
