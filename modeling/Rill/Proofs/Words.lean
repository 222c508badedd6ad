import Rill.Token
import Rill.Proofs.Between

/-!
# Words — the two sorts of lexeme

A lexeme of a source is a punctuation mark, or a word: whatever stands between marks, whitespace
and the ends.  A word need not be a word of the language.

* `Lexeme.IsMark`, `Lexeme.IsWord` — the two sorts, as texts, and `Lexeme.IsLexeme`, either;
* `Lexeme.kind?`, `Lexeme.kind` — what each one is, if the language has it;
* `Lexeme.Ends x after` — `x` is a lexeme, and is over where `after` begins: `exists_ends` finds the
  first lexeme of a text, and `Ends.append_inj` says that there is one only.
-/

namespace Rill

open Utf8

/-! ## Lexemes -/

namespace Byte

/-- Bytes that a word can hold, whether or not it is a word of the language. -/
def isInner (b : UInt8) : Bool :=
  !isBoundary b

theorem isInner_eq_false_iff {b : UInt8} : isInner b = false ↔ isBoundary b = true := by
  simp [isInner]

theorem isWhitespace_of_isInner {b : UInt8} (h : isInner b = true) : isWhitespace b = false := by
  simp only [isInner, isBoundary, Bool.not_eq_true', Bool.or_eq_false_iff] at h
  exact h.1

theorem isPunctuation_of_isInner {b : UInt8} (h : isInner b = true) :
    isPunctuation b = false := by
  simp only [isInner, isBoundary, Bool.not_eq_true', Bool.or_eq_false_iff] at h
  exact h.2

theorem isInner_of_isWhitespace {b : UInt8} (h : isWhitespace b = true) : isInner b = false := by
  simp [isInner, isBoundary, h]

theorem isInner_of_isPunctuation {b : UInt8} (h : isPunctuation b = true) :
    isInner b = false := by
  simp [isInner, isBoundary, h]

theorem isWhitespace_of_isPunctuation {b : UInt8} (h : isPunctuation b = true) :
    isWhitespace b = false :=
  of_isPunctuation (p := fun c => isWhitespace c = false) h (by decide)

theorem whole_isInner : Whole isInner :=
  whole_not_isBoundary

end Byte

namespace Lexeme

/-- A single punctuation character. -/
def IsMark (text : String) : Prop :=
  ∃ b, bytes text = [b] ∧ Byte.isPunctuation b = true

/-- Some bytes, none of which ends a lexeme. -/
def IsWord (text : String) : Prop :=
  text ≠ "" ∧ ∀ b ∈ bytes text, Byte.isInner b = true

def mark? (text : String) : Option Punctuation :=
  match bytes text with
  | [b] => Punctuation.ofByte? b
  | _ => none

/-- A mark or a word. -/
def IsLexeme (text : String) : Prop :=
  IsMark text ∨ IsWord text

/-- What a lexeme is, if it belongs to the language. -/
def kind? (text : String) : Option Token.Kind :=
  match mark? text with
  | some mark => some (.punctuation mark)
  | none => classify text

/-- What the token of a lexeme is called, where every lexeme has one. -/
def kind (text : String) : Token.Kind :=
  (kind? text).getD .error

theorem IsMark.ne_empty {text : String} (h : IsMark text) : text ≠ "" := by
  rcases h with ⟨b, hb, _⟩
  have hhead : (bytes text).head? = some b := by simp [hb]
  exact ne_empty_of_head? hhead

/-- A mark keeps words away from it, on either side. -/
theorem IsMark.stops_isInner {text : String} (h : IsMark text) : Stops Byte.isInner text := by
  rcases h with ⟨b, hb, hp⟩
  intro c hc
  have : b = c := by simpa [hb] using hc
  subst this
  exact Byte.isInner_of_isPunctuation hp

theorem IsMark.starts_isInner {text : String} (h : IsMark text) : Starts Byte.isInner text := by
  rcases h with ⟨b, hb, hp⟩
  intro c hc
  have : b = c := by simpa [hb] using hc
  subst this
  exact Byte.isInner_of_isPunctuation hp

theorem mark?_eq_none_of_isWord {text : String} (h : IsWord text) : mark? text = none := by
  unfold mark?
  split
  case h_1 b hb =>
    -- A word may be one byte long, but then it is an inner one.
    have hinner : Byte.isInner b = true := h.2 b (by simp [hb])
    exact Punctuation.ofByte?_eq_none_iff.2 (Byte.isPunctuation_of_isInner hinner)
  case h_2 => rfl

theorem IsWord.kind?_eq {text : String} (h : IsWord text) : kind? text = classify text := by
  simp [kind?, mark?_eq_none_of_isWord h]

theorem IsWord.append {x y : String} (hx : IsWord x) (hy : IsWord y) : IsWord (x ++ y) := by
  refine ⟨fun hempty => hx.1 (String.append_eq_empty_iff.1 hempty).1, ?_⟩
  intro b hb
  rw [bytes_append] at hb
  exact (List.mem_append.1 hb).elim (hx.2 b) (hy.2 b)

theorem exists_mark?_eq_some {text : String} (h : IsMark text) :
    ∃ b mark, bytes text = [b] ∧ Punctuation.ofByte? b = some mark ∧ mark? text = some mark := by
  rcases h with ⟨b, hb, hp⟩
  rcases Punctuation.exists_ofByte?_eq_some hp with ⟨mark, hmark⟩
  exact ⟨b, mark, hb, hmark, by simp [mark?, hb, hmark]⟩

/-- Marks, keywords, integers and identifiers are all that the language has. -/
theorem kind_cases {text : String} {k : Token.Kind} (h : kind? text = some k) :
    (∃ mark, k = .punctuation mark) ∨ (∃ word, k = .keyword word) ∨
      k = .integer ∨ k = .identifier := by
  unfold kind? classify at h
  split at h
  case h_1 mark hmark => exact Or.inl ⟨mark, (Option.some.inj h).symm⟩
  case h_2 =>
    split at h
    case h_1 word hword => exact Or.inr (Or.inl ⟨word, (Option.some.inj h).symm⟩)
    case h_2 =>
      -- Neither a mark nor a keyword: the shape decides.
      split at h
      · exact Or.inr (Or.inr (Or.inl (Option.some.inj h).symm))
      · split at h
        · exact Or.inr (Or.inr (Or.inr (Option.some.inj h).symm))
        · cases h

/-- `error` is for lexemes that the language does not have, and for no others. -/
theorem kind_eq_error_iff {text : String} : kind text = .error ↔ kind? text = none := by
  unfold kind
  constructor
  · intro h
    cases hk : kind? text with
    | none => rfl
    | some k =>
        have hk' : kind? text = some .error := by simpa [hk] using h
        simpa using kind_cases hk'
  · intro h
    simp [h]

/-- No lexeme is the end of the input. -/
theorem kind_ne_endOfInput (text : String) : kind text ≠ .endOfInput := by
  unfold kind
  cases hk : kind? text with
  | none => simp
  | some k =>
      rintro rfl
      simpa using kind_cases hk

/-- `text` is a lexeme, and it is over where `after` begins. -/
def Ends (text after : String) : Prop :=
  IsMark text ∨ (IsWord text ∧ Stops Byte.isInner after)

theorem Ends.isLexeme {text after : String} (h : Ends text after) : IsLexeme text :=
  h.imp_right And.left

namespace IsLexeme

variable {text : String}

theorem ne_empty (h : IsLexeme text) : text ≠ "" := by
  rcases h with hmark | hword
  · exact hmark.ne_empty
  · exact hword.1

theorem isWhitespace_of_mem (h : IsLexeme text) {b : UInt8} (hb : b ∈ bytes text) :
    Byte.isWhitespace b = false := by
  rcases h with ⟨c, hc, hp⟩ | hword
  · have : b = c := by simpa [hc] using hb
    subst this
    exact Byte.isWhitespace_of_isPunctuation hp
  · exact Byte.isWhitespace_of_isInner (hword.2 b hb)

theorem stops_isWhitespace (h : IsLexeme text) : Stops Byte.isWhitespace text := by
  intro b hb
  exact h.isWhitespace_of_mem (List.mem_of_mem_head? (by simp [hb]))

theorem newlines_eq_zero (h : IsLexeme text) : newlines text = 0 := by
  refine List.count_eq_zero.2 ?_
  intro hmem
  have hspace : Byte.isWhitespace Byte.newline = false := h.isWhitespace_of_mem hmem
  exact absurd hspace (by decide)

end IsLexeme

/-- The first lexeme of a text, and what is behind it, are told by the text. -/
theorem Ends.append_inj {x y after after' : String} (hx : Ends x after) (hy : Ends y after')
    (h : x ++ after = y ++ after') : x = y ∧ after = after' := by
  have hhead : (bytes x).head? = (bytes y).head? := by
    calc
      (bytes x).head? = (bytes (x ++ after)).head? :=
            (head?_bytes_append hx.isLexeme.ne_empty after).symm
      _ = (bytes (y ++ after')).head? := by rw [h]
      _ = (bytes y).head? := head?_bytes_append hy.isLexeme.ne_empty after'
  rcases hx with ⟨b, hb, hp⟩ | ⟨hxw, hxs⟩ <;> rcases hy with ⟨c, hc, hq⟩ | ⟨hyw, hys⟩
  · -- Two marks are the same byte.
    have hxy : x = y := by
      apply bytes_inj.1
      simpa [hb, hc] using hhead
    subst hxy
    exact ⟨rfl, (String.append_right_inj x).1 h⟩
  · -- A mark and a word begin differently.
    have hinner : Byte.isInner b = true := hyw.2 b (List.mem_of_mem_head? (by simp [← hhead, hb]))
    simp [Byte.isInner_of_isPunctuation hp] at hinner
  · have hinner : Byte.isInner c = true := hxw.2 c (List.mem_of_mem_head? (by simp [hhead, hc]))
    simp [Byte.isInner_of_isPunctuation hq] at hinner
  · -- Two words are the first run of the same text.
    exact append_inj_of_stops hxw.2 hxs hyw.2 hys h

/-- Where a text does not begin with whitespace, a lexeme stands. -/
theorem exists_ends {text : String} (hne : text ≠ "") (hw : Stops Byte.isWhitespace text) :
    ∃ x after, text = x ++ after ∧ Ends x after := by
  rcases exists_head?_of_ne_empty hne with ⟨b, hb, _⟩
  by_cases hp : Byte.isPunctuation b = true
  · -- The mark is the first byte, and a character by itself.
    have hbyte : byteAt? text 0 = some b := by
      simpa [byteAt?_eq_getElem?, List.head?_eq_getElem?] using hb
    have hcut : IsCharBoundary text 1 := isCharBoundary_succ_of_ascii (isCharBoundary_zero text)
      hbyte (Byte.lt_128_of_isPunctuation hp)
    rcases exists_append_of_isCharBoundary hcut with ⟨x, after, rfl, hsize⟩
    have hlen : (bytes x).length = 1 := (length_bytes x).trans hsize.symm
    rcases List.length_eq_one_iff.1 hlen with ⟨c, hc⟩
    have : c = b := by simpa [hc] using hb
    subst this
    exact ⟨x, after, rfl, Or.inl ⟨c, hc, hp⟩⟩
  · -- The word is the first run of inner bytes, and the first byte is one of them.
    rcases exists_run Byte.whole_isInner text with
      ⟨x, after, rfl, hx, hafter⟩
    refine ⟨x, after, rfl, Or.inr ⟨⟨?_, hx⟩, hafter⟩⟩
    rintro rfl
    have hinner : Byte.isInner b = false := hafter b (by simpa using hb)
    simp [Byte.isInner, Byte.isBoundary, hp, hw b hb] at hinner

end Lexeme
end Rill
