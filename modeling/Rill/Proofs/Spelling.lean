import Rill.Proofs.Characters
import Rill.Proofs.Reading
import Rill.Proofs.Spans

/-!
# Spelling — every token has a lexeme of its kind

A token is made of any kind and any text.  Those that lexing makes are read off a layout, and there
the kind of a lexeme is told by the lexeme.

* `Token.Kind.Admits policy kind text` — `text` is a lexeme that a token of that kind can have;
* `Layout.mem_lexed_tokens_iff` — the tokens of a layout, one by one;
* `Layout.admits_of_mem_tokens` — each of them has a lexeme that its kind admits;
* `lex_lexemes_admitted` — so do the tokens of every source, and the lexeme tells the kind.
-/

namespace Rill

open Utf8 Lexeme

/-! ## Kinds and their lexemes -/

/-- The lexemes of each kind.  The kinds that are set aside have none. -/
inductive Token.Kind.Admits (policy : Policy) : Token.Kind → String → Prop
  | punctuation {b : UInt8} {mark : Punctuation} : (b, mark) ∈ Punctuation.table →
      Admits policy (.punctuation mark) (String.singleton (Char.ofUInt8 b))
  | keyword {text : String} {word : Keyword} : (text, word) ∈ Keyword.table →
      Admits policy (.keyword word) text
  | integer {text : String} : IsNumeral text → Admits policy .integer text
  | identifier {text : String} : IsName text → (∀ word, (text, word) ∉ Keyword.table) →
      Admits policy .identifier text
  | endOfInput : Admits policy .endOfInput "EOF"
  | error {text : String} : policy = .errorToken → IsWord text →
      (∀ word, (text, word) ∉ Keyword.table) → ¬ IsNumeral text → ¬ IsName text →
      Admits policy .error text

namespace Token.Kind.Admits

variable {policy : Policy} {k : Token.Kind} {text : String}

theorem exists_mark (h : k.Admits policy text) (hk : k.isPunctuation = true) :
    ∃ b mark, (b, mark) ∈ Punctuation.table ∧ k = .punctuation mark ∧
      text = String.singleton (Char.ofUInt8 b) := by
  cases h with
  | punctuation hmark => exact ⟨_, _, hmark, rfl, rfl⟩
  | keyword | integer | identifier | endOfInput | error => cases hk

theorem exists_word (h : k.Admits policy text) (hk : k.isKeyword = true) :
    ∃ word, (text, word) ∈ Keyword.table ∧ k = .keyword word := by
  cases h with
  | keyword hword => exact ⟨_, hword, rfl⟩
  | punctuation | integer | identifier | endOfInput | error => cases hk

theorem not_reserved (h : k.Admits policy text) :
    k ≠ .string ∧ k ≠ .keyword .ifKw ∧ k ≠ .keyword .thenKw ∧ k ≠ .keyword .elseKw := by
  have htable : ∀ entry ∈ Keyword.table,
      entry.2 ≠ .ifKw ∧ entry.2 ≠ .thenKw ∧ entry.2 ≠ .elseKw := by decide
  cases h with
  | keyword hword => simpa using htable _ hword
  | punctuation | integer | identifier | endOfInput | error => simp

end Token.Kind.Admits

namespace Lexeme

variable {text : String} {policy : Policy}

/-- A mark is one ASCII byte, and that is one character. -/
theorem admits_of_mark? {mark : Punctuation} (h : mark? text = some mark) :
    (Token.Kind.punctuation mark).Admits policy text := by
  have htable : ∀ entry ∈ Punctuation.table,
      bytes (String.singleton (Char.ofUInt8 entry.1)) = [entry.1] := by decide +kernel
  unfold mark? at h
  split at h
  case h_1 b hb =>
    have hentry := Punctuation.mem_table_of_ofByte? h
    have hchar : text = String.singleton (Char.ofUInt8 b) :=
      bytes_inj.1 (hb.trans (htable _ hentry).symm)
    rw [hchar]
    exact .punctuation hentry
  case h_2 => cases h

theorem Spells.admits {k : Token.Kind} (h : Spells text k) : k.Admits policy text := by
  cases h with
  | keyword hword => exact .keyword hword
  | integer hnumeral => exact .integer hnumeral
  | identifier hname hword => exact .identifier hname hword

theorem admits_of_kind? {k : Token.Kind} (h : kind? text = some k) : k.Admits policy text := by
  unfold kind? at h
  split at h
  case h_1 mark hmark =>
    cases h
    exact admits_of_mark? hmark
  case h_2 => exact (classify_eq_some_iff.1 h).admits

end Lexeme

/-! ## Tokens of a layout -/

theorem Placed.admits_token {p : Placed} {policy : Policy} (hp : IsLexeme p.lexeme)
    (htoken : p.hasToken policy = true) : p.token.kind.Admits policy p.token.lexeme := by
  cases hkind : kind? p.lexeme with
  | some k =>
      have hk : p.token.kind = k := by simp [token, kind, hkind]
      rw [hk]
      exact admits_of_kind? hkind
  | none =>
      -- Only one policy has a token for it.
      have hk : p.token.kind = .error := kind_eq_error_iff.2 hkind
      have hpolicy : policy = .errorToken := by
        simpa [hasToken, isUnknown, hkind] using htoken
      rcases (kind?_eq_none_iff hp).1 hkind with ⟨hword, hnone⟩
      rcases classify_eq_none_iff.1 hnone with ⟨hkeyword, hnumeral, hname⟩
      rw [hk]
      exact .error hpolicy hword hkeyword hnumeral hname

namespace Layout

variable {l : Layout} {policy : Policy} {t : Token}

theorem isLexeme_of_mem_placed {p : Placed} (h : p ∈ l.placed) : IsLexeme p.lexeme := by
  rcases mem_placed_iff.1 h with ⟨_, q, _, _, rfl⟩
  exact q.isLexeme

theorem mem_lexed_tokens_iff : t ∈ (l.lexed policy).tokens ↔
    (∃ p ∈ l.placed, p.hasToken policy = true ∧ p.token = t) ∨
      t = Token.endOfInput l.lastLine := by
  simp [lexed, Placed.tokens, and_assoc]

theorem admits_of_mem_tokens (h : t ∈ (l.lexed policy).tokens) :
    t.kind.Admits policy t.lexeme := by
  rcases mem_lexed_tokens_iff.1 h with ⟨p, hp, htoken, rfl⟩ | rfl
  · exact Placed.admits_token (isLexeme_of_mem_placed hp) htoken
  · exact .endOfInput

/-- But for the end of the input, the lexeme tells the kind. -/
theorem kind_of_mem_tokens (h : t ∈ (l.lexed policy).tokens) (hend : t.kind ≠ .endOfInput) :
    t.kind = kind t.lexeme := by
  rcases mem_lexed_tokens_iff.1 h with ⟨p, _, _, rfl⟩ | rfl
  · rfl
  · exact absurd rfl hend

end Layout

/-- Every token has a lexeme that its kind admits: marks and keywords are spelled as their tables
say, and no token is of a kind that is set aside.  Two tokens of the same lexeme are of the same
kind, in whatever sources and under whatever policies they are found; but the end of the input is
apart from the lexemes. -/
theorem lex_lexemes_admitted (source : String) (policy : Policy) :
    (∀ t ∈ (lex source policy).tokens,
      t.kind.Admits policy t.lexeme ∧
      (t.kind.isPunctuation = true → ∃ b mark, (b, mark) ∈ Punctuation.table ∧
        t.kind = .punctuation mark ∧ t.lexeme = String.singleton (Char.ofUInt8 b)) ∧
      (t.kind.isKeyword = true → ∃ word, (t.lexeme, word) ∈ Keyword.table ∧
        t.kind = .keyword word) ∧
      t.kind ≠ .string ∧
        t.kind ≠ .keyword .ifKw ∧ t.kind ≠ .keyword .thenKw ∧ t.kind ≠ .keyword .elseKw) ∧
    ∀ (source' : String) (policy' : Policy),
      ∀ t ∈ (lex source policy).tokens, ∀ u ∈ (lex source' policy').tokens,
        t.kind ≠ .endOfInput → u.kind ≠ .endOfInput → t.lexeme = u.lexeme → t.kind = u.kind := by
  rcases Layout.exists_text_eq source with ⟨l, rfl⟩
  simp only [Layout.lex_text]
  constructor
  · intro t ht
    have hadmits := Layout.admits_of_mem_tokens ht
    exact ⟨hadmits, hadmits.exists_mark, hadmits.exists_word, hadmits.not_reserved⟩
  · intro source' policy' t ht u hu htend huend hlexeme
    rcases Layout.exists_text_eq source' with ⟨m, rfl⟩
    rw [Layout.lex_text] at hu
    rw [Layout.kind_of_mem_tokens ht htend, Layout.kind_of_mem_tokens hu huend, hlexeme]

end Rill
