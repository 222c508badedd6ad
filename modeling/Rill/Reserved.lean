import Rill.Byte

/-!
# Reserved — the marks and words that the language sets aside

A punctuation mark is a lexeme by itself wherever it stands; a keyword is a word like any other, and
told by its spelling.

* `Punctuation`, `Punctuation.table` — the five marks, and which byte writes which;
* `Punctuation.ofByte?` — the mark that a byte writes; `Punctuation.isSome_ofByte?` says that these
  bytes are the class `Byte.isPunctuation`;
* `Keyword`, `Keyword.table` — every word that the language sets aside, and the words that are
  reserved so far, with their spelling;
* `Keyword.ofWord?` — the keyword that a text spells.
-/

namespace Rill

/-! ## Punctuation -/

inductive Punctuation
  | semicolon
  | equals
  | leftParen
  | rightParen
  | plus
  deriving DecidableEq, Repr

namespace Punctuation

/-- The names of the parentheses are crossed: `(` is the right one and `)` the left one.  Listings
show these names, so they stay. -/
def table : List (UInt8 × Punctuation) :=
  [(59, semicolon), (61, equals), (40, rightParen), (41, leftParen), (43, plus)]

def ofByte? (b : UInt8) : Option Punctuation :=
  table.lookup b

theorem mem_table_of_ofByte? {b : UInt8} {mark : Punctuation} (h : ofByte? b = some mark) :
    (b, mark) ∈ table := by
  obtain ⟨before, after, htable, _⟩ := List.lookup_eq_some_iff.1 h
  rw [htable]
  exact List.mem_append_right before List.mem_cons_self

/-- The table and the class are written down apart, and are about the same bytes.  A byte that only
the class had would stop the word in front of it, and be no mark: no step could take it. -/
theorem isSome_ofByte? (b : UInt8) : (ofByte? b).isSome = Byte.isPunctuation b := by
  rw [Bool.eq_iff_iff, ofByte?, List.lookup_isSome_iff]
  -- The byte of some entry is one of the five that the class is made of.
  simp [table, Byte.isPunctuation, or_assoc]

theorem isPunctuation_of_ofByte? {b : UInt8} {mark : Punctuation} (h : ofByte? b = some mark) :
    Byte.isPunctuation b = true := by
  rw [← isSome_ofByte?, h]
  rfl

theorem exists_ofByte?_eq_some {b : UInt8} (h : Byte.isPunctuation b = true) :
    ∃ mark, ofByte? b = some mark :=
  Option.isSome_iff_exists.1 ((isSome_ofByte? b).trans h)

theorem ofByte?_eq_none_iff {b : UInt8} : ofByte? b = none ↔ Byte.isPunctuation b = false := by
  rw [← isSome_ofByte?, Option.isSome_eq_false_iff, Option.isNone_iff_eq_none]

end Punctuation

/-! ## Keywords -/

inductive Keyword
  | printKw
  | letKw
  | whileKw
  | ifKw
  | thenKw
  | elseKw
  deriving DecidableEq, Repr

namespace Keyword

/-- `if`, `then` and `else` have no spelling yet: a text that reads so is an identifier. -/
def table : List (String × Keyword) :=
  [("let", letKw), ("while", whileKw), ("print", printKw)]

def ofWord? (text : String) : Option Keyword :=
  table.lookup text

end Keyword

end Rill
