import Rill.Token
import Rill.Proofs.Runs

/-!
# Characters — the shapes of words, read by characters

A word is judged by its bytes.  The classes that it is judged by are ASCII, and an ASCII byte is a
character by itself; so the same can be said of characters.

* `Utf8.ascii_iff`, `Utf8.bytes_eq_map_of_ascii` — a text of ASCII bytes is one of ASCII characters,
  one byte each;
* `Lexeme.IsNumeral`, `Lexeme.IsName` — the two shapes of a word, said of its characters;
* `Lexeme.isInteger_iff`, `Lexeme.isIdentifier_iff` — they are what the bytes are tested for;
* `Lexeme.Spells` — how the words of the language are spelled: `classify_eq_some_iff` says that this
  is what they are told by.
-/

namespace Rill

open Utf8

/-! ## ASCII texts -/

namespace Utf8

theorem utf8EncodeChar_of_ascii {c : Char} (h : c.toNat < 128) :
    String.utf8EncodeChar c = [c.toUInt8] := by
  have hv : c.val.toNat ≤ 127 := Nat.le_of_lt_succ h
  rw [String.utf8EncodeChar, if_pos hv]
  rfl

theorem toNat_toUInt8_of_ascii {c : Char} (h : c.toNat < 128) : c.toUInt8.toNat = c.toNat := by
  rw [Char.toUInt8, UInt32.toNat_toUInt8]
  exact Nat.mod_eq_of_lt (Nat.lt_trans h (by decide))

theorem toUInt8_lt_of_ascii {c : Char} (h : c.toNat < 128) : c.toUInt8 < 128 := by
  rw [UInt8.lt_iff_toNat_lt, toNat_toUInt8_of_ascii h]
  exact h

/-- Any other character is written without ASCII bytes. -/
theorem not_ascii_of_mem_utf8EncodeChar {c : Char} (h : ¬ c.toNat < 128) {b : UInt8}
    (hb : b ∈ String.utf8EncodeChar c) : ¬ b < 128 := by
  have hv : ¬ c.val.toNat ≤ 127 := fun hle => h (Nat.lt_succ_of_le hle)
  have hhigh : ∀ n, 128 ≤ n → n < 256 → ¬ UInt8.ofNat n < 128 := by
    intro n hle hlt hascii
    rw [UInt8.lt_iff_toNat_lt, UInt8.toNat_ofNat', Nat.mod_eq_of_lt hlt] at hascii
    exact Nat.not_lt_of_le hle hascii
  -- Every byte is a remainder on top of a lead that has the top bit.
  simp only [String.utf8EncodeChar, if_neg hv] at hb
  split at hb
  · simp only [List.mem_cons, List.not_mem_nil, or_false] at hb
    rcases hb with rfl | rfl <;> exact hhigh _ (by omega) (by omega)
  · split at hb
    · simp only [List.mem_cons, List.not_mem_nil, or_false] at hb
      rcases hb with rfl | rfl | rfl <;> exact hhigh _ (by omega) (by omega)
    · simp only [List.mem_cons, List.not_mem_nil, or_false] at hb
      rcases hb with rfl | rfl | rfl | rfl <;> exact hhigh _ (by omega) (by omega)

theorem ascii_char_iff {c : Char} :
    (∀ b ∈ String.utf8EncodeChar c, b < 128) ↔ c.toNat < 128 := by
  by_cases hc : c.toNat < 128
  · simp [utf8EncodeChar_of_ascii hc, toUInt8_lt_of_ascii hc, hc]
  · -- There is a byte, and it is not ASCII.
    have hpos : 0 < (String.utf8EncodeChar c).length := by
      rw [String.length_utf8EncodeChar]
      exact c.utf8Size_pos
    have hfirst := not_ascii_of_mem_utf8EncodeChar hc (List.getElem_mem hpos)
    exact ⟨fun h => absurd (h _ (List.getElem_mem hpos)) hfirst, fun h => absurd h hc⟩

theorem ascii_iff {text : String} :
    (∀ b ∈ bytes text, b < 128) ↔ ∀ c ∈ text.toList, c.toNat < 128 := by
  rw [bytes_eq_flatMap]
  constructor
  · intro h c hc
    exact ascii_char_iff.1 fun b hb => h b (List.mem_flatMap.2 ⟨c, hc, hb⟩)
  · intro h b hb
    rcases List.mem_flatMap.1 hb with ⟨c, hc, hbc⟩
    exact ascii_char_iff.2 (h c hc) b hbc

theorem bytes_eq_map_of_ascii {text : String} (h : ∀ c ∈ text.toList, c.toNat < 128) :
    bytes text = text.toList.map Char.toUInt8 := by
  rw [bytes_eq_flatMap]
  generalize text.toList = cs at h
  induction cs with
  | nil => rfl
  | cons c cs ih =>
      rcases List.forall_mem_cons.1 h with ⟨hc, hcs⟩
      rw [List.flatMap_cons, utf8EncodeChar_of_ascii hc, ih hcs]
      rfl

/-! ## Classes -/

/-- The class `p` of bytes and the class `q` of characters have ASCII members only, and the same. -/
structure SameClass (p : UInt8 → Bool) (q : Char → Bool) : Prop where
  byte_ascii : ∀ b, p b = true → b < 128
  char_ascii : ∀ c, q c = true → c.toNat < 128
  agree : ∀ c : Char, c.toNat < 128 → p c.toUInt8 = q c

theorem SameClass.of_range {lo hi : Nat} (hhi : hi < 128) {p : UInt8 → Bool} {q : Char → Bool}
    (hp : ∀ b, p b = true ↔ lo ≤ b.toNat ∧ b.toNat ≤ hi)
    (hq : ∀ c, q c = true ↔ lo ≤ c.toNat ∧ c.toNat ≤ hi) : SameClass p q where
  byte_ascii b hb := UInt8.lt_iff_toNat_lt.2 (Nat.lt_of_le_of_lt ((hp b).1 hb).2 hhi)
  char_ascii c hc := Nat.lt_of_le_of_lt ((hq c).1 hc).2 hhi
  agree c hc := by rw [Bool.eq_iff_iff, hp, hq, toNat_toUInt8_of_ascii hc]

theorem SameClass.or {p p' : UInt8 → Bool} {q q' : Char → Bool} (h : SameClass p q)
    (h' : SameClass p' q') : SameClass (fun b => p b || p' b) (fun c => q c || q' c) where
  byte_ascii b hb := (Bool.or_eq_true_iff.1 hb).elim (h.byte_ascii b) (h'.byte_ascii b)
  char_ascii c hc := (Bool.or_eq_true_iff.1 hc).elim (h.char_ascii c) (h'.char_ascii c)
  agree c hc := by rw [h.agree c hc, h'.agree c hc]

theorem SameClass.forall_mem_bytes_iff {p : UInt8 → Bool} {q : Char → Bool} (h : SameClass p q)
    {text : String} : (∀ b ∈ bytes text, p b = true) ↔ ∀ c ∈ text.toList, q c = true := by
  constructor
  · intro hp
    have hascii : ∀ c ∈ text.toList, c.toNat < 128 :=
      ascii_iff.1 fun b hb => h.byte_ascii b (hp b hb)
    intro c hc
    rw [← h.agree c (hascii c hc)]
    apply hp
    rw [bytes_eq_map_of_ascii hascii]
    exact List.mem_map_of_mem hc
  · intro hq
    have hascii : ∀ c ∈ text.toList, c.toNat < 128 := fun c hc => h.char_ascii c (hq c hc)
    intro b hb
    rw [bytes_eq_map_of_ascii hascii] at hb
    rcases List.mem_map.1 hb with ⟨c, hc, rfl⟩
    rw [h.agree c (hascii c hc)]
    exact hq c hc

end Utf8

namespace Lexeme

/-- A letter, a digit or an underscore. -/
def isWordChar (c : Char) : Bool :=
  c.isLower || c.isUpper || c.isDigit || c == '_'

theorem isLower_iff_toNat {c : Char} :
    c.isLower = true ↔ 'a'.toNat ≤ c.toNat ∧ c.toNat ≤ 'z'.toNat :=
  Bool.and_eq_true_iff.trans (and_congr decide_eq_true_iff decide_eq_true_iff)

theorem isUpper_iff_toNat {c : Char} :
    c.isUpper = true ↔ 'A'.toNat ≤ c.toNat ∧ c.toNat ≤ 'Z'.toNat :=
  decide_eq_true_iff

theorem sameClass_isDigit : SameClass Byte.isDigit Char.isDigit :=
  .of_range (by decide) (fun _ => by simp [Byte.isDigit, UInt8.le_iff_toNat_le])
    fun _ => Char.isDigit_iff_toNat

theorem sameClass_isLower : SameClass Byte.isLower Char.isLower :=
  .of_range (by decide) (fun _ => by simp [Byte.isLower, UInt8.le_iff_toNat_le])
    fun _ => isLower_iff_toNat

theorem sameClass_isUpper : SameClass Byte.isUpper Char.isUpper :=
  .of_range (by decide) (fun _ => by simp [Byte.isUpper, UInt8.le_iff_toNat_le])
    fun _ => isUpper_iff_toNat

theorem sameClass_underscore : SameClass (· == 95) (· == '_') where
  byte_ascii b hb := by
    rw [beq_iff_eq.1 hb]
    decide
  char_ascii c hc := by
    rw [beq_iff_eq.1 hc]
    decide
  agree c hc := by
    rw [Bool.eq_iff_iff, beq_iff_eq, beq_iff_eq, ← UInt8.toNat_inj, toNat_toUInt8_of_ascii hc]
    exact Char.toNat_inj (d := '_')

theorem sameClass_isWord : SameClass Byte.isWord isWordChar :=
  ((sameClass_isLower.or sameClass_isUpper).or sameClass_isDigit).or sameClass_underscore

/-! ## Shapes -/

/-- One or more digits. -/
def IsNumeral (text : String) : Prop :=
  text ≠ "" ∧ ∀ c ∈ text.toList, c.isDigit = true

/-- A small letter, then letters, digits and underscores. -/
def IsName (text : String) : Prop :=
  ∃ c cs, text.toList = c :: cs ∧ c.isLower = true ∧ ∀ d ∈ cs, isWordChar d = true

theorem IsName.isWordChar {text : String} (h : IsName text) :
    ∀ c ∈ text.toList, Lexeme.isWordChar c = true := by
  rcases h with ⟨c, cs, htext, hc, hcs⟩
  rw [htext]
  exact List.forall_mem_cons.2 ⟨by simp [Lexeme.isWordChar, hc], hcs⟩

theorem isInteger_iff {text : String} : isInteger text = true ↔ IsNumeral text := by
  rw [isInteger, IsNumeral, Bool.and_eq_true, List.all_eq_true,
    sameClass_isDigit.forall_mem_bytes_iff]
  simp

theorem isIdentifier_eq_true_iff {text : String} :
    isIdentifier text = true ↔ ∃ b rest, bytes text = b :: rest ∧ Byte.isLower b = true ∧
      ∀ x ∈ rest, Byte.isWord x = true := by
  rw [isIdentifier]
  cases bytes text with
  | nil => simp
  | cons b rest =>
      simp only [Bool.and_eq_true, List.all_eq_true]
      constructor
      · rintro ⟨hb, hrest⟩
        exact ⟨b, rest, rfl, hb, hrest⟩
      · rintro ⟨_, _, hcons, hb, hrest⟩
        cases hcons
        exact ⟨hb, hrest⟩

theorem isIdentifier_iff {text : String} : isIdentifier text = true ↔ IsName text := by
  rw [isIdentifier_eq_true_iff]
  constructor
  · rintro ⟨b, rest, hbytes, hb, hrest⟩
    -- All bytes are of one class, so each is a character.
    have hword : ∀ x ∈ bytes text, Byte.isWord x = true := by
      rw [hbytes]
      exact List.forall_mem_cons.2 ⟨by simp [Byte.isWord, hb], hrest⟩
    have hchars := sameClass_isWord.forall_mem_bytes_iff.1 hword
    have hascii : ∀ c ∈ text.toList, c.toNat < 128 := fun c hc =>
      sameClass_isWord.char_ascii c (hchars c hc)
    have hmap := bytes_eq_map_of_ascii hascii
    cases htext : text.toList with
    | nil => simp [htext, hbytes] at hmap
    | cons c cs =>
        rw [htext] at hmap hchars hascii
        rcases List.forall_mem_cons.1 hchars with ⟨_, hcs⟩
        have hbc : b = c.toUInt8 := (List.cons.inj (hbytes.symm.trans hmap)).1
        rw [hbc, sameClass_isLower.agree c (hascii c List.mem_cons_self)] at hb
        exact ⟨c, cs, htext, hb, hcs⟩
  · intro h
    have hchars := h.isWordChar
    rcases h with ⟨c, cs, htext, hc, -⟩
    have hmap := bytes_eq_map_of_ascii fun d hd =>
      sameClass_isWord.char_ascii d (hchars d hd)
    have hword := sameClass_isWord.forall_mem_bytes_iff.2 hchars
    rw [hmap, htext, List.map_cons] at hword
    refine ⟨c.toUInt8, cs.map Char.toUInt8, by rw [hmap, htext, List.map_cons], ?_,
      (List.forall_mem_cons.1 hword).2⟩
    rw [sameClass_isLower.agree c (sameClass_isLower.char_ascii c hc)]
    exact hc

/-- A name begins with a letter, and a numeral with a digit. -/
theorem IsName.not_isNumeral {text : String} (h : IsName text) : ¬ IsNumeral text := by
  rintro ⟨_, hdigits⟩
  rcases h with ⟨c, cs, htext, hlower, _⟩
  have hdigit : c.isDigit = true := hdigits c (by simp [htext])
  have hle : 'a'.toNat ≤ '9'.toNat :=
    Nat.le_trans (isLower_iff_toNat.1 hlower).1 (Char.isDigit_iff_toNat.1 hdigit).2
  exact absurd hle (by decide)

/-! ## Words of the language -/

theorem isName_of_mem_table {text : String} {word : Keyword} (h : (text, word) ∈ Keyword.table) :
    IsName text := by
  have htable : ∀ entry ∈ Keyword.table, isIdentifier entry.1 = true := by decide +kernel
  exact isIdentifier_iff.1 (htable _ h)

theorem ofWord?_eq_some_iff {text : String} {word : Keyword} :
    Keyword.ofWord? text = some word ↔ (text, word) ∈ Keyword.table := by
  constructor
  · intro h
    rcases List.lookup_eq_some_iff.1 h with ⟨before, after, htable, _⟩
    rw [htable]
    exact List.mem_append_right before List.mem_cons_self
  · intro h
    have htable : ∀ entry ∈ Keyword.table, Keyword.ofWord? entry.1 = some entry.2 := by decide
    exact htable _ h

theorem ofWord?_eq_none_iff {text : String} :
    Keyword.ofWord? text = none ↔ ∀ word, (text, word) ∉ Keyword.table := by
  simp only [Option.eq_none_iff_forall_ne_some, ne_eq, ofWord?_eq_some_iff]

/-- The kinds of word, and how each is spelled.  No order is in this: a name that is a keyword is
no identifier, and a numeral is neither. -/
inductive Spells (text : String) : Token.Kind → Prop
  | keyword {word : Keyword} : (text, word) ∈ Keyword.table → Spells text (.keyword word)
  | integer : IsNumeral text → Spells text .integer
  | identifier : IsName text → (∀ word, (text, word) ∉ Keyword.table) → Spells text .identifier

theorem classify_eq_some_iff {text : String} {k : Token.Kind} :
    classify text = some k ↔ Spells text k := by
  constructor
  · intro h
    unfold classify at h
    split at h
    case h_1 word hword =>
      cases h
      exact .keyword (ofWord?_eq_some_iff.1 hword)
    case h_2 hnone =>
      split at h
      case isTrue hinteger =>
        cases h
        exact .integer (isInteger_iff.1 hinteger)
      case isFalse =>
        split at h
        case isTrue hidentifier =>
          cases h
          exact .identifier (isIdentifier_iff.1 hidentifier) (ofWord?_eq_none_iff.1 hnone)
        case isFalse => cases h
  · intro h
    cases h with
    | keyword hword => simp [classify, ofWord?_eq_some_iff.2 hword]
    | integer hnumeral =>
        have hnone : Keyword.ofWord? text = none :=
          ofWord?_eq_none_iff.2 fun _ hword => (isName_of_mem_table hword).not_isNumeral hnumeral
        simp [classify, hnone, isInteger_iff.2 hnumeral]
    | identifier hname hword =>
        have hinteger : ¬ isInteger text = true := fun h => hname.not_isNumeral (isInteger_iff.1 h)
        simp [classify, ofWord?_eq_none_iff.2 hword, hinteger, isIdentifier_iff.2 hname]

theorem classify_eq_none_iff {text : String} :
    classify text = none ↔ (∀ word, (text, word) ∉ Keyword.table) ∧ ¬ IsNumeral text ∧
      ¬ IsName text := by
  simp only [Option.eq_none_iff_forall_ne_some, ne_eq, classify_eq_some_iff]
  constructor
  · intro h
    have hword : ∀ word, (text, word) ∉ Keyword.table := fun _ hword => h _ (.keyword hword)
    exact ⟨hword, fun hnumeral => h _ (.integer hnumeral),
      fun hname => h _ (.identifier hname hword)⟩
  · rintro ⟨hword, hnumeral, hname⟩ k hk
    cases hk with
    | keyword h => exact hword _ h
    | integer h => exact hnumeral h
    | identifier h _ => exact hname h

end Lexeme
end Rill
