import Rill.Byte
import Rill.Utf8

/-!
# Runs — how the bytes of a text fall into stretches of one class

* `Utf8.Stops p text` — a run of the class `p` cannot go on into `text`;
* `Utf8.append_inj_of_stops` — so the text after a run tells where the run ends;
* `Utf8.Starts p text` — a run of the class `p` cannot go back into `text`;
* `Utf8.newlines text` — how many line ends a text holds.
-/

namespace Rill
namespace Utf8

/-! ## Texts put together -/

attribute [simp] String.append_assoc

@[simp]
theorem bytes_empty : bytes "" = [] := rfl

@[simp]
theorem bytes_append (s t : String) : bytes (s ++ t) = bytes s ++ bytes t := by
  simp [bytes]

theorem bytes_ofList (text : List Char) :
    bytes (String.ofList text) = text.flatMap String.utf8EncodeChar := by
  rw [bytes, String.toByteArray_ofList, List.utf8Encode]
  simp

theorem bytes_eq_flatMap (text : String) :
    bytes text = text.toList.flatMap String.utf8EncodeChar := by
  rw [← bytes_ofList, String.ofList_toList]

theorem bytes_inj {s t : String} : bytes s = bytes t ↔ s = t := by
  constructor
  · intro h
    exact String.toByteArray_inj.1 (ByteArray.ext (Array.toList_inj.1 h))
  · intro h
    simp [h]

@[simp]
theorem bytes_eq_nil_iff {s : String} : bytes s = [] ↔ s = "" :=
  bytes_inj (t := "")

/-- A text that begins with a known byte is not empty. -/
theorem ne_empty_of_head? {s : String} {b : UInt8} (h : (bytes s).head? = some b) : s ≠ "" := by
  rintro rfl
  simp at h

theorem exists_head?_of_ne_empty {s : String} (h : s ≠ "") :
    ∃ b, (bytes s).head? = some b ∧ b ∈ bytes s := by
  cases hs : bytes s with
  | nil => exact absurd (bytes_eq_nil_iff.1 hs) h
  | cons b bs => exact ⟨b, rfl, List.mem_cons_self⟩

/-- The first byte of a text is the first byte of what it begins with. -/
theorem head?_bytes_append {s : String} (h : s ≠ "") (t : String) :
    (bytes (s ++ t)).head? = (bytes s).head? := by
  rcases exists_head?_of_ne_empty h with ⟨b, hb, _⟩
  simp [hb]

theorem exists_append_of_isCharBoundary {s : String} {i : Nat} (h : IsCharBoundary s i) :
    ∃ before after, s = before ++ after ∧ i = before.utf8ByteSize := by
  rcases String.Pos.Raw.isValid_iff_exists_append.1 h with ⟨before, after, hs, hi⟩
  exact ⟨before, after, hs, congrArg String.Pos.Raw.byteIdx hi⟩

theorem isCharBoundary_append (before after : String) :
    IsCharBoundary (before ++ after) before.utf8ByteSize :=
  String.Pos.Raw.isValid_iff_exists_append.2 ⟨before, after, rfl, rfl⟩

/-! ## Cutting in three -/

theorem isCharBoundary_append_append (before text after : String) :
    IsCharBoundary (before ++ (text ++ after)) (before ++ text).utf8ByteSize := by
  rw [← String.append_assoc]
  exact isCharBoundary_append (before ++ text) after

theorem cut_append {before text after : String}
    (hstart : IsCharBoundary (before ++ (text ++ after)) before.utf8ByteSize)
    (hstop : IsCharBoundary (before ++ (text ++ after)) (before ++ text).utf8ByteSize) :
    cut (before ++ (text ++ after)) before.utf8ByteSize (before ++ text).utf8ByteSize hstart hstop =
      text := by
  -- The bytes of a cut are known; dropping and taking leaves those of `text`.
  apply bytes_inj.1
  have hdrop : (bytes (before ++ (text ++ after))).drop before.utf8ByteSize =
      bytes text ++ bytes after := by
    simp [← length_bytes]
  have htake : (before ++ text).utf8ByteSize - before.utf8ByteSize = (bytes text).length := by
    simp
  rw [bytes_cut, hdrop, htake, List.take_left]

/-- Of two texts that one begins with, the longer begins with the shorter. -/
theorem exists_of_append_eq_append {s t u v : String} (h : s ++ t = u ++ v)
    (hle : s.utf8ByteSize ≤ u.utf8ByteSize) : ∃ m, u = s ++ m ∧ t = m ++ v := by
  have hchars : s.toList ++ t.toList = u.toList ++ v.toList := by
    simpa using congrArg String.toList h
  rcases List.append_eq_append_iff.1 hchars with ⟨m, hu, ht⟩ | ⟨m, hs, hv⟩
  · refine ⟨String.ofList m, String.toList_inj.1 ?_, String.toList_inj.1 ?_⟩
    · simpa using hu
    · simpa using ht
  · -- What `s` has more than `u` is empty, as it is no longer.
    have hs' : s = u ++ String.ofList m := String.toList_inj.1 (by simpa using hs)
    have hempty : String.ofList m = "" := by
      rw [hs', String.utf8ByteSize_append] at hle
      exact String.utf8ByteSize_eq_zero_iff.1 (by omega)
    refine ⟨"", ?_, ?_⟩
    · simp [hs', hempty]
    · rw [hs', hempty, String.append_empty] at h
      simpa using (String.append_right_inj u).1 h

/-- Two offsets between characters cut a text in three. -/
theorem exists_append_append {s : String} {i j : Nat} (hi : IsCharBoundary s i)
    (hj : IsCharBoundary s j) (hij : i ≤ j) :
    ∃ before text after, s = before ++ (text ++ after) ∧ i = before.utf8ByteSize ∧
      j = (before ++ text).utf8ByteSize := by
  rcases exists_append_of_isCharBoundary hi with ⟨before, rest, rfl, rfl⟩
  rcases exists_append_of_isCharBoundary hj with ⟨front, after, hs, rfl⟩
  rcases exists_of_append_eq_append hs hij with ⟨text, rfl, rfl⟩
  exact ⟨before, text, after, rfl, rfl, rfl⟩

/-! ## Where a run stops -/

/-- The first byte, if there is one, is outside the class `p`. -/
def Stops (p : UInt8 → Bool) (text : String) : Prop :=
  ∀ b, (bytes text).head? = some b → p b = false

@[simp]
theorem stops_empty (p : UInt8 → Bool) : Stops p "" := by
  intro b hb
  simp at hb

theorem stops_append {p : UInt8 → Bool} {s : String} (hne : s ≠ "") (hs : Stops p s)
    (t : String) : Stops p (s ++ t) := by
  intro b hb
  rw [head?_bytes_append hne] at hb
  exact hs b hb

theorem stops_iff {p : UInt8 → Bool} {text : String} :
    Stops p text ↔ text = "" ∨ ∃ b, (bytes text).head? = some b ∧ p b = false := by
  rw [Stops, ← bytes_eq_nil_iff, ← List.head?_eq_none_iff]
  cases (bytes text).head? <;> simp

theorem takeWhile_of_stops {p : UInt8 → Bool} {text : String} (h : Stops p text) :
    (bytes text).takeWhile p = [] := by
  cases hb : bytes text with
  | nil => rfl
  | cons b bs =>
      have : p b = false := h b (by simp [hb])
      simp [this]

theorem takeWhile_append_of_stops {p : UInt8 → Bool} {run after : String}
    (hrun : ∀ b ∈ bytes run, p b = true) (hafter : Stops p after) :
    (bytes (run ++ after)).takeWhile p = bytes run := by
  calc
    (bytes (run ++ after)).takeWhile p = (bytes run ++ bytes after).takeWhile p := by
          rw [bytes_append]
    _ = bytes run ++ (bytes after).takeWhile p := List.takeWhile_append_of_pos hrun
    _ = bytes run := by simp [takeWhile_of_stops hafter]

/-- A text is cut in one way only into a run and what the run cannot go on into. -/
theorem append_inj_of_stops {p : UInt8 → Bool} {run run' after after' : String}
    (hrun : ∀ b ∈ bytes run, p b = true) (hafter : Stops p after)
    (hrun' : ∀ b ∈ bytes run', p b = true) (hafter' : Stops p after')
    (h : run ++ after = run' ++ after') : run = run' ∧ after = after' := by
  -- Both runs are what the class takes from the front of the same text.
  have heq : run = run' := by
    apply bytes_inj.1
    calc
      bytes run = (bytes (run ++ after)).takeWhile p :=
            (takeWhile_append_of_stops hrun hafter).symm
      _ = (bytes (run' ++ after')).takeWhile p := by rw [h]
      _ = bytes run' := takeWhile_append_of_stops hrun' hafter'
  subst heq
  exact ⟨rfl, (String.append_right_inj run).1 h⟩

/-! ## Where a run starts -/

/-- The last byte, if there is one, is outside the class `p`. -/
def Starts (p : UInt8 → Bool) (text : String) : Prop :=
  ∀ b, (bytes text).getLast? = some b → p b = false

@[simp]
theorem starts_empty (p : UInt8 → Bool) : Starts p "" := by
  intro b hb
  simp at hb

theorem starts_iff {p : UInt8 → Bool} {text : String} :
    Starts p text ↔ text = "" ∨ ∃ b, (bytes text).getLast? = some b ∧ p b = false := by
  rw [Starts, ← bytes_eq_nil_iff, ← List.getLast?_eq_none_iff]
  cases (bytes text).getLast? <;> simp

theorem exists_getLast?_of_ne_empty {s : String} (h : s ≠ "") :
    ∃ b, (bytes s).getLast? = some b ∧ b ∈ bytes s := by
  have hne : bytes s ≠ [] := fun hnil => h (bytes_eq_nil_iff.1 hnil)
  exact ⟨_, List.getLast?_eq_some_getLast hne, List.getLast_mem hne⟩

/-- The last byte of a text is the last byte of what it ends with. -/
theorem getLast?_bytes_append (s : String) {t : String} (h : t ≠ "") :
    (bytes (s ++ t)).getLast? = (bytes t).getLast? := by
  rcases exists_getLast?_of_ne_empty h with ⟨b, hb, _⟩
  simp [hb]

theorem starts_append {p : UInt8 → Bool} {t : String} (hne : t ≠ "") (ht : Starts p t)
    (s : String) : Starts p (s ++ t) := by
  intro b hb
  rw [getLast?_bytes_append s hne] at hb
  exact ht b hb

/-! ## Line ends -/

def newlines (text : String) : Nat :=
  (bytes text).count Byte.newline

@[simp]
theorem newlines_empty : newlines "" = 0 := rfl

@[simp]
theorem newlines_append (s t : String) : newlines (s ++ t) = newlines s + newlines t := by
  simp [newlines]

end Utf8
end Rill
