import Rill.Proofs.Characters

/-!
# Grammar — the tests that tell the words of the language

A word is put to three tests, one after the other, and the first that it passes gives its kind.

* `Lexeme.Test` — the tests, and `Lexeme.tell order`, the kind that they give in some order:
  `classify_eq_tell` says in which one they are made;
* `Lexeme.tell_eq_classify_iff` — the order makes a difference to keywords only, and only the order
  of the tests for keywords and identifiers does;
* `Lexeme.Spells.isWordChar` — what the words of the language are made of;
* `Lexeme.classify_grammar` — which texts are words of the language, and of which kind.
-/

namespace Rill

open Utf8

namespace Byte

variable {b : UInt8}

theorem le_toNat_of_isWord (h : isWord b = true) : 48 ≤ b.toNat := by
  simp only [isWord, isLower, isUpper, isDigit, Bool.or_eq_true, Bool.and_eq_true,
    decide_eq_true_eq, beq_iff_eq, UInt8.le_iff_toNat_le, ← UInt8.toNat_inj, UInt8.reduceToNat] at h
  omega

theorem toNat_le_of_isWhitespace (h : isWhitespace b = true) : b.toNat ≤ 32 := by
  simp only [isWhitespace, Bool.or_eq_true, Bool.and_eq_true, decide_eq_true_eq, beq_iff_eq,
    UInt8.le_iff_toNat_le, ← UInt8.toNat_inj, UInt8.reduceToNat] at h
  omega

theorem isWord_eq_false_of_isPunctuation (h : isPunctuation b = true) : isWord b = false :=
  of_isPunctuation (p := fun c => isWord c = false) h (by decide)

/-- What words of the language are made of does not end a lexeme. -/
theorem isBoundary_eq_false_of_isWord (h : isWord b = true) : isBoundary b = false := by
  rw [Bool.eq_false_iff]
  intro hboundary
  rcases Bool.or_eq_true_iff.1 hboundary with hspace | hpunctuation
  · have hle := le_toNat_of_isWord h
    have hge := toNat_le_of_isWhitespace hspace
    omega
  · simp [isWord_eq_false_of_isPunctuation hpunctuation] at h

end Byte

namespace Lexeme

/-! ## Tests -/

inductive Test
  | keyword
  | integer
  | identifier
  deriving DecidableEq, Repr

/-- The kind that a test gives to the texts that pass it. -/
def Test.apply : Test → String → Option Token.Kind
  | keyword, text => (Keyword.ofWord? text).map .keyword
  | integer, text => if isInteger text then some .integer else none
  | identifier, text => if isIdentifier text then some .identifier else none

/-- The kind that the first test gives that a text passes. -/
def tell (order : List Test) (text : String) : Option Token.Kind :=
  order.findSome? (·.apply text)

variable {text : String} {word : Keyword} {order : List Test}

theorem classify_eq_tell (text : String) :
    classify text = tell [.keyword, .integer, .identifier] text := by
  cases hword : Keyword.ofWord? text with
  | some word => simp [classify, tell, Test.apply, hword]
  | none =>
      cases hinteger : isInteger text <;> cases hidentifier : isIdentifier text <;>
        simp [classify, tell, Test.apply, hword, hinteger, hidentifier]

/-- All tests that a text passes give it the same kind, unless it is a keyword. -/
theorem Test.apply_eq (hword : ∀ word, (text, word) ∉ Keyword.table) (test : Test) :
    test.apply text = none ∨ test.apply text = classify text := by
  cases test with
  | keyword => exact Or.inl (by simp [apply, ofWord?_eq_none_iff.2 hword])
  | integer =>
      by_cases hinteger : isInteger text = true
      · have hclassify := classify_eq_some_iff.2 (.integer (isInteger_iff.1 hinteger))
        exact Or.inr (by simp [apply, hinteger, hclassify])
      · exact Or.inl (by simp [apply, hinteger])
  | identifier =>
      by_cases hidentifier : isIdentifier text = true
      · have hclassify :=
          classify_eq_some_iff.2 (.identifier (isIdentifier_iff.1 hidentifier) hword)
        exact Or.inr (by simp [apply, hidentifier, hclassify])
      · exact Or.inl (by simp [apply, hidentifier])

/-- A word of the language passes a test that gives its kind. -/
theorem Test.exists_apply_eq {k : Token.Kind} (h : classify text = some k) :
    ∃ test : Test, test.apply text = some k := by
  cases classify_eq_some_iff.1 h with
  | keyword hword => exact ⟨.keyword, by simp [apply, ofWord?_eq_some_iff.2 hword]⟩
  | integer hnumeral => exact ⟨.integer, by simp [apply, isInteger_iff.2 hnumeral]⟩
  | identifier hname _ => exact ⟨.identifier, by simp [apply, isIdentifier_iff.2 hname]⟩

theorem tell_eq_classify (hall : ∀ test, test ∈ order)
    (hword : ∀ word, (text, word) ∉ Keyword.table) : tell order text = classify text := by
  cases hclassify : classify text with
  | none =>
      refine List.findSome?_eq_none_iff.2 ?_
      intro test _
      simpa [hclassify] using Test.apply_eq hword test
  | some k =>
      -- One test answers, and all that answer say the same.
      rcases Test.exists_apply_eq hclassify with ⟨test, htest⟩
      have hsome : (tell order text).isSome = true :=
        List.findSome?_isSome_iff.2 ⟨test, hall test, by simp [htest]⟩
      rcases Option.isSome_iff_exists.1 hsome with ⟨k', hk'⟩
      rcases List.exists_of_findSome?_eq_some hk' with ⟨test', _, htest'⟩
      rw [hk', ← htest', ← hclassify]
      exact (Test.apply_eq hword test').resolve_left (by simp [htest'])

/-- A keyword passes the test for identifiers too. -/
theorem tell_keyword_iff (hword : (text, word) ∈ Keyword.table) :
    tell order text = some (.keyword word) ↔ order.idxOf .keyword < order.idxOf .identifier := by
  have hname := isName_of_mem_table hword
  have hkeyword : Keyword.ofWord? text = some word := ofWord?_eq_some_iff.2 hword
  have hinteger : ¬ isInteger text = true := fun h => hname.not_isNumeral (isInteger_iff.1 h)
  have hidentifier : isIdentifier text = true := isIdentifier_iff.2 hname
  induction order with
  | nil => simp [tell]
  | cons test order ih =>
      rw [List.idxOf_cons, List.idxOf_cons]
      cases test with
      | keyword =>
          have htell : tell (.keyword :: order) text = some (.keyword word) := by
            simp [tell, Test.apply, hkeyword]
          exact iff_of_true htell (Nat.succ_pos _)
      | integer =>
          -- It is passed over, and both other tests are one place further on.
          have htell : tell (.integer :: order) text = tell order text := by
            simp [tell, Test.apply, hinteger]
          rw [htell]
          exact ih.trans Nat.succ_lt_succ_iff.symm
      | identifier =>
          have htell : tell (.identifier :: order) text = some .identifier := by
            simp [tell, Test.apply, hidentifier]
          rw [htell]
          exact iff_of_false (by simp) (Nat.not_lt_zero _)

theorem tell_eq_classify_iff (hall : ∀ test, test ∈ order) :
    tell order text = classify text ↔
      (∀ word, (text, word) ∉ Keyword.table) ∨ order.idxOf .keyword < order.idxOf .identifier := by
  cases hword : Keyword.ofWord? text with
  | none =>
      have hnone := ofWord?_eq_none_iff.1 hword
      exact iff_of_true (tell_eq_classify hall hnone) (Or.inl hnone)
  | some word =>
      have hmem := ofWord?_eq_some_iff.1 hword
      rw [classify_eq_some_iff.2 (.keyword hmem), tell_keyword_iff hmem]
      exact (or_iff_right fun hnone => hnone word hmem).symm

/-- Numbers may be told before keywords, but identifiers may not. -/
example : tell [.integer, .keyword, .identifier] "let" = some (.keyword .letKw) ∧
    tell [.identifier, .keyword, .integer] "let" = some .identifier := by decide +kernel

/-! ## What words are made of -/

theorem Spells.isWordChar {k : Token.Kind} (h : Spells text k) :
    ∀ c ∈ text.toList, Lexeme.isWordChar c = true := by
  cases h with
  | keyword hword => exact (isName_of_mem_table hword).isWordChar
  | integer hnumeral =>
      intro c hc
      simp [Lexeme.isWordChar, hnumeral.2 c hc]
  | identifier hname _ => exact hname.isWordChar

theorem classify_eq_none_of_not_ascii (h : ∃ c ∈ text.toList, ¬ c.toNat < 128) :
    classify text = none := by
  rcases h with ⟨c, hc, hascii⟩
  refine Option.eq_none_iff_forall_ne_some.2 ?_
  intro k hk
  exact hascii (sameClass_isWord.char_ascii c ((classify_eq_some_iff.1 hk).isWordChar c hc))

theorem classify_eq_none_of_isBoundary (h : ∃ b ∈ bytes text, Byte.isBoundary b = true) :
    classify text = none := by
  rcases h with ⟨b, hb, hboundary⟩
  refine Option.eq_none_iff_forall_ne_some.2 ?_
  intro k hk
  have hword : Byte.isWord b = true :=
    sameClass_isWord.forall_mem_bytes_iff.2 (classify_eq_some_iff.1 hk).isWordChar b hb
  simp [Byte.isBoundary_eq_false_of_isWord hword] at hboundary

/-! ## Kinds of words -/

theorem mem_table_iff : (text, word) ∈ Keyword.table ↔
    (text = "let" ∧ word = .letKw) ∨ (text = "while" ∧ word = .whileKw) ∨
      (text = "print" ∧ word = .printKw) := by
  simp [Keyword.table]

theorem exists_mem_table_iff :
    (∃ word, (text, word) ∈ Keyword.table) ↔ text ∈ ["let", "while", "print"] := by
  simp [mem_table_iff, exists_or]

theorem classify_eq_keyword_iff :
    classify text = some (.keyword word) ↔ (text, word) ∈ Keyword.table := by
  rw [classify_eq_some_iff]
  constructor
  · rintro (hword | _ | _)
    exact hword
  · exact .keyword

theorem classify_eq_integer_iff : classify text = some .integer ↔ IsNumeral text := by
  rw [classify_eq_some_iff]
  constructor
  · rintro (_ | hnumeral | _)
    exact hnumeral
  · exact .integer

theorem classify_eq_identifier_iff :
    classify text = some .identifier ↔ IsName text ∧ ∀ word, (text, word) ∉ Keyword.table := by
  rw [classify_eq_some_iff]
  constructor
  · rintro (_ | _ | ⟨hname, hword⟩)
    exact ⟨hname, hword⟩
  · rintro ⟨hname, hword⟩
    exact .identifier hname hword

/-- The words of the language are the three keywords, the numerals, and the names that are no
keywords; so they have no character outside ASCII and no byte that ends a lexeme.  No text looks
like an integer and like an identifier, and every keyword looks like an identifier: the tests may be
made in any order in which keywords are told before identifiers, and in no other. -/
theorem classify_grammar (text : String) :
    (∀ word, classify text = some (.keyword word) ↔
      (text = "let" ∧ word = .letKw) ∨ (text = "while" ∧ word = .whileKw) ∨
        (text = "print" ∧ word = .printKw)) ∧
    (classify text = some .integer ↔ IsNumeral text) ∧
    (classify text = some .identifier ↔ IsName text ∧ text ∉ ["let", "while", "print"]) ∧
    (classify text = none ↔
      text ∉ ["let", "while", "print"] ∧ ¬ IsNumeral text ∧ ¬ IsName text) ∧
    ((∃ c ∈ text.toList, ¬ c.toNat < 128) → classify text = none) ∧
    ((∃ b ∈ bytes text, Byte.isBoundary b = true) → classify text = none) ∧
    ¬ (isInteger text = true ∧ isIdentifier text = true) ∧
    (text ∈ ["let", "while", "print"] → isIdentifier text = true) ∧
    classify text = tell [.keyword, .integer, .identifier] text ∧
    ∀ order, (∀ test, test ∈ order) →
      (tell order text = classify text ↔
        text ∉ ["let", "while", "print"] ∨ order.idxOf .keyword < order.idxOf .identifier) := by
  simp only [← exists_mem_table_iff, not_exists]
  refine ⟨fun word => classify_eq_keyword_iff.trans mem_table_iff, classify_eq_integer_iff,
    classify_eq_identifier_iff, classify_eq_none_iff, classify_eq_none_of_not_ascii,
    classify_eq_none_of_isBoundary, ?_, ?_, classify_eq_tell text,
    fun order => tell_eq_classify_iff⟩
  · rintro ⟨hinteger, hidentifier⟩
    exact (isIdentifier_iff.1 hidentifier).not_isNumeral (isInteger_iff.1 hinteger)
  · rintro ⟨word, hword⟩
    exact isIdentifier_iff.2 (isName_of_mem_table hword)

end Lexeme
end Rill
