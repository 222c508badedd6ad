/-!
# Split — a text cut at every separator

* `Text.splitChars` — the parts between the separators, empty ones included;
* `Text.split` — the same for strings.

The parts hold no separator, and put together again with separators between them they are the text;
no other list of texts is like that (`split_eq_iff`).
-/

namespace Rill
namespace Text

def splitChars (separator : Char) : List Char → List (List Char)
  | [] => [[]]
  | c :: rest =>
      if c = separator then [] :: splitChars separator rest
      else
        match splitChars separator rest with
        | [] => [[c]]
        | part :: parts => (c :: part) :: parts

def split (separator : Char) (text : String) : List String :=
  (splitChars separator text.toList).map String.ofList

/-! ## Laws -/

theorem splitChars_ne_nil (separator : Char) (text : List Char) :
    splitChars separator text ≠ [] := by
  cases text with
  | nil => simp [splitChars]
  | cons c rest =>
      unfold splitChars
      split
      · simp
      · split <;> simp

theorem not_mem_of_mem_splitChars {separator : Char} {text part : List Char}
    (h : part ∈ splitChars separator text) : separator ∉ part := by
  induction text generalizing part with
  | nil =>
      intro hmem
      simp only [splitChars, List.mem_singleton] at h
      rw [h] at hmem
      cases hmem
  | cons c rest ih =>
      unfold splitChars at h
      split at h
      case isTrue hc =>
        rcases List.mem_cons.1 h with rfl | hrest
        · simp
        · exact ih hrest
      case isFalse hc =>
        split at h
        case h_1 hnil => exact absurd hnil (splitChars_ne_nil separator rest)
        case h_2 first parts heq =>
          rcases List.mem_cons.1 h with rfl | hparts
          · have hfirst : separator ∉ first := ih (by rw [heq]; exact List.mem_cons_self)
            intro hmem
            rcases List.mem_cons.1 hmem with hsep | hmem
            · exact hc hsep.symm
            · exact hfirst hmem
          · exact ih (by rw [heq]; exact List.mem_cons_of_mem first hparts)

theorem intercalate_splitChars (separator : Char) (text : List Char) :
    [separator].intercalate (splitChars separator text) = text := by
  induction text with
  | nil => rfl
  | cons c rest ih =>
      unfold splitChars
      split
      case isTrue hc =>
        cases hs : splitChars separator rest with
        | nil => exact absurd hs (splitChars_ne_nil separator rest)
        | cons part parts =>
            rw [hs] at ih
            rw [List.intercalate_cons_cons, ih, hc]
            rfl
      case isFalse hc =>
        split
        case h_1 hnil => exact absurd hnil (splitChars_ne_nil separator rest)
        case h_2 part parts hs =>
          rw [hs] at ih
          -- `c` goes to the first part, with or without a separator behind that.
          cases parts with
          | nil =>
              rw [List.intercalate_singleton] at ih ⊢
              rw [ih]
          | cons next parts =>
              rw [List.intercalate_cons_cons] at ih ⊢
              rw [List.cons_append, List.cons_append, ih]

/-! ## The other way round -/

theorem mem_intercalate {c : Char} {separator : List Char} {parts : List (List Char)}
    (h : c ∈ separator.intercalate parts) : c ∈ separator ∨ ∃ part ∈ parts, c ∈ part := by
  induction parts with
  | nil => simp at h
  | cons part parts ih =>
      cases parts with
      | nil => exact Or.inr ⟨part, by simp, by simpa using h⟩
      | cons next parts =>
          rw [List.intercalate_cons_cons, List.mem_append, List.mem_append] at h
          rcases h with (h | h) | h
          · exact Or.inr ⟨part, by simp, h⟩
          · exact Or.inl h
          · rcases ih h with h | ⟨part', hpart', h⟩
            · exact Or.inl h
            · exact Or.inr ⟨part', List.mem_cons_of_mem _ hpart', h⟩

variable {separator : Char}

theorem splitChars_of_not_mem {part : List Char} (h : separator ∉ part) :
    splitChars separator part = [part] := by
  induction part with
  | nil => rfl
  | cons c rest ih =>
      have hc : c ≠ separator := fun heq => h (heq ▸ List.mem_cons_self)
      have hrest := ih fun hmem => h (List.mem_cons_of_mem c hmem)
      simp [splitChars, hc, hrest]

theorem splitChars_append_cons {part : List Char} (h : separator ∉ part) (rest : List Char) :
    splitChars separator (part ++ separator :: rest) = part :: splitChars separator rest := by
  induction part with
  | nil => simp [splitChars]
  | cons c part ih =>
      have hc : c ≠ separator := fun heq => h (heq ▸ List.mem_cons_self)
      have hpart := ih fun hmem => h (List.mem_cons_of_mem c hmem)
      simp [splitChars, hc, hpart]

theorem splitChars_intercalate {parts : List (List Char)} (hne : parts ≠ [])
    (h : ∀ part ∈ parts, separator ∉ part) :
    splitChars separator ([separator].intercalate parts) = parts := by
  induction parts with
  | nil => exact absurd rfl hne
  | cons part parts ih =>
      rcases List.forall_mem_cons.1 h with ⟨hpart, hparts⟩
      cases parts with
      | nil => rw [List.intercalate_singleton, splitChars_of_not_mem hpart]
      | cons next parts =>
          rw [List.intercalate_cons_cons, List.append_assoc, List.singleton_append,
            splitChars_append_cons hpart, ih (List.cons_ne_nil _ _) hparts]

/-- The parts of a text are told by what they are, not by how they are found. -/
theorem split_eq_iff {text : String} {parts : List String} :
    split separator text = parts ↔
      parts ≠ [] ∧ (∀ part ∈ parts, separator ∉ part.toList) ∧
        (String.singleton separator).intercalate parts = text := by
  constructor
  · rintro rfl
    refine ⟨?_, ?_, ?_⟩
    · simpa [split] using splitChars_ne_nil separator text.toList
    · intro part hpart
      rcases List.mem_map.1 hpart with ⟨chars, hchars, rfl⟩
      simpa using not_mem_of_mem_splitChars hchars
    · apply String.toList_inj.1
      simpa [split, Function.comp_def] using intercalate_splitChars separator text.toList
  · rintro ⟨hne, hparts, rfl⟩
    have hchars : splitChars separator ([separator].intercalate (parts.map String.toList)) =
        parts.map String.toList := by
      refine splitChars_intercalate (by simpa using hne) ?_
      intro part hpart
      rcases List.mem_map.1 hpart with ⟨text, htext, rfl⟩
      exact hparts text htext
    simp [split, hchars, Function.comp_def]

end Text
end Rill
