import Mathlib.Data.List.Basic
import Rill.Proofs.Characters
import Rill.Proofs.LineEnds

/-!
# Returns — which `\r` go with a line end, and which stay

Bringing line ends to one form can be said place by place: of each `\r` and `\n` that are
neighbours the `\r` goes, and nothing else does.  A `\r` that stays may come to stand before a
`\n`, where another one went or where the last line got its end.

* `Lines.PairAt`, `Lines.eraseBefore` — the places of such neighbours, and what is left of a list
  when the first of the two goes;
* `Lines.collapse_eq_eraseBefore`, `Lines.flatMap_utf8EncodeChar_collapse` — it comes to the same
  for the characters of a text and for its bytes;
* `Lines.normalize_eq_eraseBefore` — what is left of a text, and what is put behind it;
* `Lines.pair_normalize_iff` — the texts in which a `\r` before a `\n` is left over;
* `Lines.normalize_pairs_left` — they are those that a second pass changes again.
-/

namespace Rill

open Utf8

/-! ## Bytes of ASCII characters -/

namespace Utf8

variable {a c : Char} {text : List Char}

/-- The byte of an ASCII character is in no other one. -/
theorem toUInt8_mem_utf8EncodeChar_iff (ha : a.toNat < 128) :
    a.toUInt8 ∈ String.utf8EncodeChar c ↔ c = a := by
  constructor
  · intro hmem
    by_cases hc : c.toNat < 128
    · rw [utf8EncodeChar_of_ascii hc, List.mem_singleton] at hmem
      rw [← Char.toNat_inj, ← toNat_toUInt8_of_ascii hc, ← toNat_toUInt8_of_ascii ha, hmem]
    · exact absurd (toUInt8_lt_of_ascii ha) (not_ascii_of_mem_utf8EncodeChar hc hmem)
  · rintro rfl
    simp [utf8EncodeChar_of_ascii ha]

theorem head?_flatMap_utf8EncodeChar_iff (ha : a.toNat < 128) :
    (text.flatMap String.utf8EncodeChar).head? = some a.toUInt8 ↔ text.head? = some a := by
  cases text with
  | nil => simp
  | cons c rest =>
      rw [List.flatMap_cons, List.head?_append_of_ne_nil _ String.utf8EncodeChar_ne_nil,
        List.head?_cons, Option.some.injEq]
      constructor
      · intro h
        exact (toUInt8_mem_utf8EncodeChar_iff ha).1 (List.mem_of_mem_head? h)
      · rintro rfl
        rw [utf8EncodeChar_of_ascii ha]
        rfl

theorem getLast?_flatMap_utf8EncodeChar_iff (ha : a.toNat < 128) :
    (text.flatMap String.utf8EncodeChar).getLast? = some a.toUInt8 ↔ text.getLast? = some a := by
  rcases List.eq_nil_or_concat text with rfl | ⟨init, c, rfl⟩
  · simp
  · rw [List.concat_eq_append, List.flatMap_append, List.flatMap_singleton,
      List.getLast?_append_of_ne_nil _ String.utf8EncodeChar_ne_nil, List.getLast?_concat,
      Option.some.injEq]
    constructor
    · intro h
      exact (toUInt8_mem_utf8EncodeChar_iff ha).1 (List.mem_of_getLast? h)
    · rintro rfl
      rw [utf8EncodeChar_of_ascii ha]
      rfl

end Utf8

namespace Lines

/-! ## Neighbours in a list -/

section Pairs

variable {α : Type} {first second : α}

/-- At place `i` stands `first`, and right behind it `second`. -/
def PairAt (first second : α) (xs : List α) (i : Nat) : Prop :=
  xs[i]? = some first ∧ xs[i + 1]? = some second

instance [DecidableEq α] (first second : α) (xs : List α) (i : Nat) :
    Decidable (PairAt first second xs i) :=
  inferInstanceAs (Decidable (_ ∧ _))

/-- What stands at all other places, in order. -/
def eraseBefore [DecidableEq α] (first second : α) (xs : List α) : List α :=
  ((List.range xs.length).filter fun i => ¬ PairAt first second xs i).filterMap (xs[·]?)

theorem pairAt_zero_iff {x : α} {xs : List α} :
    PairAt first second (x :: xs) 0 ↔ x = first ∧ xs.head? = some second := by
  simp [PairAt, List.head?_eq_getElem?]

variable [DecidableEq α]

theorem eraseBefore_cons (x : α) (xs : List α) :
    eraseBefore first second (x :: xs) =
      if x = first ∧ xs.head? = some second then eraseBefore first second xs
      else x :: eraseBefore first second xs := by
  -- The other places of the list are those of its tail, each one further on.
  have htail : (((List.range xs.length).map Nat.succ).filter
      fun i => ¬ PairAt first second (x :: xs) i).filterMap ((x :: xs)[·]?) =
      eraseBefore first second xs := by
    rw [List.filter_map, List.filterMap_map]
    rfl
  rw [eraseBefore, List.length_cons, List.range_succ_eq_map, List.filter_cons]
  simp only [decide_eq_true_eq, pairAt_zero_iff]
  by_cases hpair : x = first ∧ xs.head? = some second
  · rw [if_neg (not_not_intro hpair), if_pos hpair, htail]
  · rw [if_pos hpair, if_neg hpair, List.filterMap_cons, htail]
    rfl

theorem eraseBefore_append_of_not_mem {front : List α} (h : first ∉ front) (xs : List α) :
    eraseBefore first second (front ++ xs) = front ++ eraseBefore first second xs := by
  induction front with
  | nil => rfl
  | cons x front ih =>
      have hx : ¬ (x = first ∧ (front ++ xs).head? = some second) := by
        rintro ⟨rfl, -⟩
        exact h List.mem_cons_self
      rw [List.cons_append, eraseBefore_cons, if_neg hx, ih (mt (List.mem_cons_of_mem x) h)]
      rfl

/-- Of three the first stays. -/
example : eraseBefore 1 2 [1, 1, 2, 2, 1] = [1, 2, 2, 1] := by decide

end Pairs

theorem collapse_eq_eraseBefore (text : List Char) :
    collapse text = eraseBefore '\r' '\n' text := by
  induction text with
  | nil => rfl
  | cons c rest ih => rw [collapse, eraseBefore_cons, ih]

/-! ## Bytes -/

/-- The bytes of a text have the same neighbours of this kind as its characters. -/
theorem flatMap_utf8EncodeChar_collapse (text : List Char) :
    (collapse text).flatMap String.utf8EncodeChar =
      eraseBefore '\r'.toUInt8 '\n'.toUInt8 (text.flatMap String.utf8EncodeChar) := by
  induction text with
  | nil => rfl
  | cons c rest ih =>
      rw [collapse, List.flatMap_cons]
      by_cases hc : c = '\r'
      · subst hc
        have hhead : (rest.flatMap String.utf8EncodeChar).head? = some '\n'.toUInt8 ↔
            rest.head? = some '\n' := head?_flatMap_utf8EncodeChar_iff (by decide)
        have henc : String.utf8EncodeChar '\r' = ['\r'.toUInt8] := by decide
        rw [henc, List.singleton_append, eraseBefore_cons]
        simp only [hhead, true_and]
        split
        · exact ih
        · rw [List.flatMap_cons, henc, ih]
          rfl
      · have hmem : '\r'.toUInt8 ∉ String.utf8EncodeChar c :=
          mt (toUInt8_mem_utf8EncodeChar_iff (by decide)).1 hc
        rw [if_neg fun hpair => hc hpair.1, eraseBefore_append_of_not_mem hmem,
          List.flatMap_cons, ih]

/-! ## What is left of a text -/

/-- Of a run of `\r` before a `\n` one goes. -/
theorem collapse_run (before after : List Char) (k : Nat) :
    collapse (before ++ (List.replicate (k + 1) '\r' ++ '\n' :: after)) =
      collapse before ++ (List.replicate k '\r' ++ '\n' :: collapse after) := by
  have hrun : '\n' ∉ List.replicate (k + 1) '\r' := by simp [List.mem_replicate]
  have hdrop : dropReturn (List.replicate (k + 1) '\r') = List.replicate k '\r' := by
    simp [dropReturn, List.getLast?_replicate, List.dropLast_replicate]
  rw [collapse_append (Or.inr (by simp [List.replicate_succ])), collapse_line hrun, hdrop]

/-- Any other `\r` stays. -/
theorem collapse_lone {after : List Char} (h : after.head? ≠ some '\n') (before : List Char) :
    collapse (before ++ '\r' :: after) = collapse before ++ '\r' :: collapse after := by
  rw [collapse_append (Or.inr (by simp)), collapse_cons_of_not_pair fun hpair => h hpair.2]

theorem bytes_ending (text : String) : bytes (ending text) =
    if bytes text = [] ∨ (bytes text).getLast? = some '\n'.toUInt8 then [] else ['\n'.toUInt8] := by
  have hlast : (bytes text).getLast? = some '\n'.toUInt8 ↔ text.toList.getLast? = some '\n' := by
    rw [bytes_eq_flatMap]
    exact getLast?_flatMap_utf8EncodeChar_iff (by decide)
  rw [ending, terminator, bytes_ofList]
  simp only [hlast, bytes_eq_nil_iff, String.toList_eq_nil_iff]
  split
  · rfl
  · decide

/-- Bringing the line ends of a text to one form takes away every `\r` right before a `\n`, and
puts a `\n` behind a last line that has none; no other character goes, comes or moves.  For the
bytes of the text it is the same.  So one `\r` of a run before a `\n` goes, and a `\r` elsewhere
stays, at the end of the text too. -/
theorem normalize_eq_eraseBefore (text : String) :
    (normalize text).toList = eraseBefore '\r' '\n' text.toList ++ terminator text.toList ∧
    bytes (normalize text) = eraseBefore '\r'.toUInt8 '\n'.toUInt8 (bytes text) ++
      (if bytes text = [] ∨ (bytes text).getLast? = some '\n'.toUInt8 then []
        else ['\n'.toUInt8]) ∧
    (∀ before after k,
      text.toList = before ++ (List.replicate (k + 1) '\r' ++ '\n' :: after) →
        (normalize text).toList = eraseBefore '\r' '\n' before ++
          (List.replicate k '\r' ++ '\n' :: (eraseBefore '\r' '\n' after ++ terminator after))) ∧
    ∀ before after, text.toList = before ++ '\r' :: after → after.head? ≠ some '\n' →
      (normalize text).toList = eraseBefore '\r' '\n' before ++
        '\r' :: (eraseBefore '\r' '\n' after ++ terminator text.toList) := by
  simp only [← collapse_eq_eraseBefore]
  refine ⟨toList_normalize text, ?_, ?_, ?_⟩
  · rw [normalize_eq, bytes_append, bytes_ending, collapsed, bytes_ofList,
      flatMap_utf8EncodeChar_collapse, ← bytes_eq_flatMap]
  · -- The end of the text is the end of what is behind the run.
    intro before after k htext
    have hterminator : terminator text.toList = terminator after := by
      rw [htext, ← List.append_assoc, terminator_append_cons]
    rw [toList_normalize, hterminator, htext, collapse_run]
    simp only [List.append_assoc, List.cons_append]
  · intro before after htext hhead
    have hcollapse : collapse text.toList = collapse before ++ '\r' :: collapse after := by
      rw [htext, collapse_lone hhead]
    rw [toList_normalize, hcollapse, List.append_assoc, List.cons_append]

/-! ## Pairs that are left over -/

theorem getLast?_collapse (text : List Char) : (collapse text).getLast? = text.getLast? := by
  induction text with
  | nil => rfl
  | cons c rest ih =>
      rw [collapse]
      split
      case isTrue hpair =>
        -- What a `\r` stands before is behind it.
        cases rest with
        | nil => simp at hpair
        | cons d rest => rw [ih, List.getLast?_cons_cons]
      case isFalse => rw [List.getLast?_cons, List.getLast?_cons, ih]

/-- A `\n` comes to stand in front where a pair was. -/
theorem head?_collapse_iff {text : List Char} :
    (collapse text).head? = some '\n' ↔ text.head? = some '\n' ∨ ['\r', '\n'] <+: text := by
  cases text with
  | nil => simp [collapse]
  | cons c rest =>
      rw [pair_prefix_iff]
      by_cases hpair : c = '\r' ∧ rest.head? = some '\n'
      · -- What is behind the `\r` that goes is the `\n`.
        rcases hpair with ⟨rfl, hhead⟩
        rcases List.head?_eq_some_iff.1 hhead with ⟨after, rfl⟩
        simp [collapse]
      · rw [collapse_cons_of_not_pair hpair, or_iff_left hpair]
        rfl

/-- A pair is left over where its `\r` is not the only one. -/
theorem pair_collapse_iff {text : List Char} :
    ['\r', '\n'] <:+: collapse text ↔ ['\r', '\r', '\n'] <:+: text := by
  induction text with
  | nil => simp [collapse]
  | cons c rest ih =>
      rw [List.infix_cons_iff, List.cons_prefix_cons]
      by_cases hpair : c = '\r' ∧ rest.head? = some '\n'
      · -- The first character goes; what it stands before is no `\r`.
        have hbegins : ¬ ['\r', '\n'] <+: rest := by
          rcases List.head?_eq_some_iff.1 hpair.2 with ⟨after, rfl⟩
          simp
        rw [collapse_cons_of_pair hpair, ih]
        simp [hbegins]
      · -- The first character stays, and is in front of a `\n` now if a pair was behind it.
        rw [collapse_cons_of_not_pair hpair, pair_cons_iff, ih, head?_collapse_iff]
        refine or_congr_left ⟨?_, ?_⟩
        · rintro ⟨rfl, hhead | hbegins⟩
          · exact absurd ⟨rfl, hhead⟩ hpair
          · exact ⟨rfl, hbegins⟩
        · rintro ⟨rfl, hbegins⟩
          exact ⟨rfl, Or.inr hbegins⟩

/-- Putting a `\n` behind a text makes a pair of its last `\r`. -/
theorem pair_concat_iff {text : List Char} :
    ['\r', '\n'] <:+: text ++ ['\n'] ↔ ['\r', '\n'] <:+: text ∨ text.getLast? = some '\r' := by
  induction text with
  | nil => decide
  | cons c rest ih =>
      rw [List.cons_append, pair_cons_iff, pair_cons_iff, ih]
      cases rest with
      | nil => simp
      | cons d rest => simp [or_assoc]

/-- The pairs that are left over in a text whose line ends are of one form. -/
theorem pair_normalize_iff {text : String} :
    ['\r', '\n'] <:+: (normalize text).toList ↔
      ['\r', '\r', '\n'] <:+: text.toList ∨ text.toList.getLast? = some '\r' := by
  rw [toList_normalize, terminator]
  split
  case isTrue hend =>
    -- Nothing is put behind the text, which does not end in a `\r`.
    have hlast : text.toList.getLast? ≠ some '\r' := by
      intro hr
      rcases hend with hnil | hn
      · simp [hnil] at hr
      · simp [hn] at hr
    simp [hlast, pair_collapse_iff]
  case isFalse => rw [pair_concat_iff, pair_collapse_iff, getLast?_collapse]

/-! ## A second pass -/

/-- Lines that all end in `\n`, the last one too. -/
theorem ends_normalize (text : String) :
    normalize text = "" ∨ (normalize text).toList.getLast? = some '\n' := by
  by_cases hempty : text = ""
  · subst hempty
    exact Or.inl (by decide +kernel)
  · have hne : text.toList ≠ [] := fun hnil => hempty (String.toList_eq_nil_iff.1 hnil)
    right
    rw [toList_normalize, terminator]
    split
    case isTrue hend => simpa [hne, getLast?_collapse] using hend
    case isFalse => simp

theorem terminator_eq_nil {text : String} (h : text = "" ∨ text.toList.getLast? = some '\n') :
    terminator text.toList = [] :=
  if_pos (h.imp_left String.toList_eq_nil_iff.2)

/-- The texts that a pass leaves as they are. -/
theorem normalize_eq_self_iff {text : String} : normalize text = text ↔
    (text = "" ∨ text.toList.getLast? = some '\n') ∧ ¬ ['\r', '\n'] <:+: text.toList := by
  have hlist : normalize text = text ↔
      collapse text.toList ++ terminator text.toList = text.toList := by
    rw [← String.toList_inj, toList_normalize]
  constructor
  · intro h
    have hend : text = "" ∨ text.toList.getLast? = some '\n' := by
      simpa only [h] using ends_normalize text
    have hcollapse := hlist.1 h
    rw [terminator_eq_nil hend, List.append_nil] at hcollapse
    exact ⟨hend, collapse_eq_self_iff.1 hcollapse⟩
  · rintro ⟨hend, hpair⟩
    rw [hlist, terminator_eq_nil hend, List.append_nil, collapse_eq_self_iff.2 hpair]

/-- A text whose line ends have been brought to one form is empty or ends in `\n`.  But a pair is
left over where a `\r` stood before a pair, and where one stood at the end of the text; and these
are the texts that a second pass would change again. -/
theorem normalize_pairs_left (text : String) :
    (normalize text = "" ∨ (normalize text).toList.getLast? = some '\n') ∧
    (['\r', '\n'] <:+: (normalize text).toList ↔
      ['\r', '\r', '\n'] <:+: text.toList ∨ text.toList.getLast? = some '\r') ∧
    (normalize (normalize text) = normalize text ↔
      ¬ ['\r', '\n'] <:+: (normalize text).toList) := by
  refine ⟨ends_normalize text, pair_normalize_iff, ?_⟩
  rw [normalize_eq_self_iff]
  exact and_iff_right (ends_normalize text)

/-- The end that a last line gets goes with the `\r` in front of it. -/
theorem normalize_return_at_end :
    normalize "a\r" = "a\r\n" ∧ ['\r', '\n'] <:+: (normalize "a\r").toList ∧
      normalize (normalize "a\r") = "a\n" ∧ normalize (normalize "a\r") ≠ normalize "a\r" := by
  decide +kernel

end Lines
end Rill
