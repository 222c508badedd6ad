import Rill.File.Source
import Rill.Proofs.Runs

/-!
# LineEnds — what bringing line ends to one form does to a text

Going through a text line by line comes to the same as two changes to its characters: a `\r` right
before a `\n` goes, and a last line that has no end gets one.

* `Lines.collapse`, `Lines.terminator` — the two changes, and `join_split`, which says that they are
  all there is;
* `Lines.collapse_eq_self_iff` — the texts in which nothing goes;
* `Lines.returns` — how many `\r` go; `utf8ByteSize_collapsed` says that a text gets shorter by
  that;
* `Lines.collapsed_append` — where a text may be cut before it is changed;
* `Lines.newlines_collapsed` — no line end goes.
-/

namespace Rill

open Utf8

namespace Lines

/-- Every `\r` right before a `\n` goes. -/
def collapse : List Char → List Char
  | [] => []
  | c :: rest =>
      if c = '\r' ∧ rest.head? = some '\n' then collapse rest else c :: collapse rest

/-- How often a `\r` and a `\n` are neighbours. -/
def returns (text : List Char) : Nat :=
  (text.zip text.tail).count ('\r', '\n')

/-- What is missing behind the last line. -/
def terminator (text : List Char) : List Char :=
  if text = [] ∨ text.getLast? = some '\n' then [] else ['\n']

/-! ## Collapsing -/

theorem collapse_cons_of_pair {c : Char} {rest : List Char}
    (h : c = '\r' ∧ rest.head? = some '\n') : collapse (c :: rest) = collapse rest := by
  rw [collapse, if_pos h]

theorem collapse_cons_of_not_pair {c : Char} {rest : List Char}
    (h : ¬ (c = '\r' ∧ rest.head? = some '\n')) :
    collapse (c :: rest) = c :: collapse rest := by
  rw [collapse, if_neg h]

/-- Pairs of neighbours are in the one part or in the other, but for the pair at the cut. -/
theorem collapse_append {a b : List Char}
    (h : a.getLast? ≠ some '\r' ∨ b.head? ≠ some '\n') :
    collapse (a ++ b) = collapse a ++ collapse b := by
  induction a with
  | nil => rfl
  | cons c a ih =>
      cases a with
      | nil =>
          have hpair : ¬ (c = '\r' ∧ b.head? = some '\n') := by
            rintro ⟨rfl, hb⟩
            exact h.elim (fun hlast => hlast rfl) fun hhead => hhead hb
          have hsingle : collapse [c] = [c] := collapse_cons_of_not_pair (by simp)
          rw [hsingle]
          exact collapse_cons_of_not_pair hpair
      | cons d a =>
          have hrest : collapse (d :: a ++ b) = collapse (d :: a) ++ collapse b :=
            ih (by simpa using h)
          -- The first pair of neighbours is in both texts, or in neither.
          by_cases hpair : c = '\r' ∧ (d :: a).head? = some '\n'
          · have hpair' : c = '\r' ∧ (d :: a ++ b).head? = some '\n' := hpair
            rw [collapse_cons_of_pair hpair, ← hrest]
            exact collapse_cons_of_pair hpair'
          · have hpair' : ¬ (c = '\r' ∧ (d :: a ++ b).head? = some '\n') := hpair
            have hcollapse := collapse_cons_of_not_pair hpair'
            rw [hrest] at hcollapse
            rw [collapse_cons_of_not_pair hpair]
            exact hcollapse

theorem collapse_sublist (text : List Char) : (collapse text).Sublist text := by
  induction text with
  | nil => exact List.Sublist.slnil
  | cons c rest ih =>
      rw [collapse]
      split
      · exact ih.cons c
      · exact ih.cons_cons c

theorem pair_prefix_iff {c : Char} {rest : List Char} :
    ['\r', '\n'] <+: c :: rest ↔ c = '\r' ∧ rest.head? = some '\n' := by
  cases rest with
  | nil => simp [List.cons_prefix_cons]
  | cons d rest => simp [List.cons_prefix_cons, eq_comm]

theorem pair_cons_iff {c : Char} {rest : List Char} :
    ['\r', '\n'] <:+: c :: rest ↔
      (c = '\r' ∧ rest.head? = some '\n') ∨ ['\r', '\n'] <:+: rest := by
  rw [List.infix_cons_iff, pair_prefix_iff]

/-- Nothing goes where there is no such pair, and only there. -/
theorem collapse_eq_self_iff {text : List Char} :
    collapse text = text ↔ ¬ ['\r', '\n'] <:+: text := by
  induction text with
  | nil => simp [collapse]
  | cons c rest ih =>
      rw [pair_cons_iff]
      by_cases hpair : c = '\r' ∧ rest.head? = some '\n'
      · -- Without a character the text is another one.
        have hne : collapse rest ≠ c :: rest := by
          intro heq
          have hle := (collapse_sublist rest).length_le
          rw [heq, List.length_cons] at hle
          omega
        rw [collapse_cons_of_pair hpair]
        exact iff_of_false hne (not_not_intro (Or.inl hpair))
      · simp [collapse_cons_of_not_pair hpair, ih, hpair]

/-- There is none where one of the two characters does not occur. -/
theorem collapse_eq_self {text : List Char} (h : '\r' ∉ text ∨ '\n' ∉ text) :
    collapse text = text := by
  rw [collapse_eq_self_iff]
  intro hpair
  rcases h with hr | hn
  · exact hr (hpair.subset (by simp))
  · exact hn (hpair.subset (by simp))

theorem collapse_ne_nil {text : List Char} (h : text ≠ []) : collapse text ≠ [] := by
  induction text with
  | nil => exact absurd rfl h
  | cons c rest ih =>
      rw [collapse]
      split
      case isTrue hpair =>
        -- What a `\r` stands before is still there.
        apply ih
        rintro rfl
        simp at hpair
      case isFalse => simp

theorem returns_cons (c : Char) (rest : List Char) :
    returns (c :: rest) =
      (if c = '\r' ∧ rest.head? = some '\n' then 1 else 0) + returns rest := by
  cases rest with
  | nil => simp [returns]
  | cons d rest =>
      simp only [returns, List.tail_cons, List.zip_cons_cons, List.count_cons, List.head?_cons,
        Option.some.injEq, beq_iff_eq, Prod.mk.injEq]
      omega

/-! ## Line by line -/

/-- A line without its end, and then the rest. -/
theorem collapse_line {line : List Char} (h : '\n' ∉ line) (rest : List Char) :
    collapse (line ++ '\n' :: rest) = dropReturn line ++ '\n' :: collapse rest := by
  unfold dropReturn
  split
  case isTrue hlast =>
    rcases List.getLast?_eq_some_iff.1 hlast with ⟨init, rfl⟩
    have hinit : '\n' ∉ init := fun hmem => h (List.mem_append_left _ hmem)
    calc
      collapse (init ++ ['\r'] ++ '\n' :: rest)
          = collapse init ++ collapse ('\r' :: '\n' :: rest) := by
            rw [List.append_assoc]
            exact collapse_append (Or.inr (by simp))
      _ = (init ++ ['\r']).dropLast ++ '\n' :: collapse rest := by
            simp [collapse_eq_self (Or.inr hinit), collapse]
  case isFalse hlast =>
    rw [collapse_append (Or.inl hlast), collapse_eq_self (Or.inr h),
      collapse_cons_of_not_pair (by simp)]

theorem terminator_append_cons (line rest : List Char) :
    terminator (line ++ '\n' :: rest) = terminator rest := by
  cases rest with
  | nil => simp [terminator]
  | cons c rest => simp [terminator, List.getLast?_append]

/-- Where there is a `\n`, the first line and what is behind its end make up the text. -/
theorem exists_first_line {text : List Char} (h : text.dropWhile (· != '\n') ≠ []) :
    '\n' ∉ text.takeWhile (· != '\n') ∧
      text = text.takeWhile (· != '\n') ++ '\n' :: (text.dropWhile (· != '\n')).tail := by
  constructor
  · intro hmem
    have hall := List.all_eq_true.1 (List.all_takeWhile (p := (· != '\n')) (l := text)) _ hmem
    simp at hall
  · have hhead : (text.dropWhile (· != '\n')).head h = '\n' := by
      simpa using List.head_dropWhile_not (· != '\n') h
    calc
      text = text.takeWhile (· != '\n') ++ text.dropWhile (· != '\n') :=
            List.takeWhile_append_dropWhile.symm
      _ = text.takeWhile (· != '\n') ++ '\n' :: (text.dropWhile (· != '\n')).tail :=
            congrArg _ ((List.cons_head_tail h).symm.trans (congrArg (· :: _) hhead))

theorem join_split (text : List Char) : join (split text) = collapse text ++ terminator text := by
  fun_induction split text with
  | case1 text h ih =>
      rcases exists_first_line h with ⟨hline, htext⟩
      have hcollapse := collapse_line hline (text.dropWhile (· != '\n')).tail
      have hterminator := terminator_append_cons (text.takeWhile (· != '\n'))
        (text.dropWhile (· != '\n')).tail
      rw [← htext] at hcollapse hterminator
      rw [hcollapse, hterminator]
      simpa [join] using ih
  | case2 text h hempty =>
      have : text = [] := by simpa using hempty
      subst this
      rfl
  | case3 text h hempty =>
      -- What has no `\n` is one line, and keeps its `\r`.
      have hn : '\n' ∉ text := by
        intro hmem
        have hdrop : text.dropWhile (· != '\n') = [] := Decidable.not_not.1 h
        have htake : text.takeWhile (· != '\n') = text := by
          simpa [hdrop] using List.takeWhile_append_dropWhile (p := (· != '\n')) (l := text)
        have hall := List.all_eq_true.1 (List.all_takeWhile (p := (· != '\n')) (l := text)) '\n'
        rw [htake] at hall
        simpa using hall hmem
      have hne : text ≠ [] := by simpa using hempty
      have hlast : text.getLast? ≠ some '\n' := fun hl => hn (List.mem_of_getLast? hl)
      simp [join, collapse_eq_self (Or.inr hn), terminator, hne, hlast]

/-! ## Texts -/

def collapsed (text : String) : String :=
  String.ofList (collapse text.toList)

/-- What `normalize` puts behind a text. -/
def ending (text : String) : String :=
  String.ofList (terminator text.toList)

theorem toList_normalize (text : String) :
    (normalize text).toList = collapse text.toList ++ terminator text.toList := by
  rw [normalize, join_split, String.toList_ofList]

theorem normalize_eq (text : String) : normalize text = collapsed text ++ ending text := by
  rw [normalize, join_split, String.ofList_append]
  rfl

/-- Of two `\r` one goes, and the last line keeps its own. -/
example : normalize "a\r\r\nb\r" = "a\r\nb\r\n" := by decide +kernel

theorem collapsed_append {s t : String}
    (h : s.toList.getLast? ≠ some '\r' ∨ t.toList.head? ≠ some '\n') :
    collapsed (s ++ t) = collapsed s ++ collapsed t := by
  rw [collapsed, String.toList_append, collapse_append h, String.ofList_append]
  rfl

theorem collapsed_eq_self {text : String} (h : '\r' ∉ text.toList) : collapsed text = text := by
  rw [collapsed, collapse_eq_self (Or.inl h), String.ofList_toList]

theorem collapsed_ne_empty {text : String} (h : text ≠ "") : collapsed text ≠ "" := by
  intro hempty
  have hne : text.toList ≠ [] := fun hnil => h (String.toList_eq_nil_iff.1 hnil)
  apply collapse_ne_nil hne
  simpa [collapsed] using congrArg String.toList hempty

/-! ## Bytes -/

theorem bytes_collapsed_subset (text : String) : bytes (collapsed text) ⊆ bytes text := by
  intro b hb
  rw [collapsed, bytes_ofList] at hb
  rw [bytes_eq_flatMap]
  rcases List.mem_flatMap.1 hb with ⟨c, hc, hbc⟩
  exact List.mem_flatMap.2 ⟨c, (collapse_sublist _).subset hc, hbc⟩

/-- What goes is no line end. -/
theorem newlines_collapsed (text : String) : newlines (collapsed text) = newlines text := by
  rw [newlines, newlines, collapsed, bytes_ofList, bytes_eq_flatMap text]
  induction text.toList with
  | nil => rfl
  | cons c rest ih =>
      rw [collapse]
      split
      case isTrue hpair =>
        have hcount : (String.utf8EncodeChar c).count Byte.newline = 0 := by
          rw [hpair.1]
          decide
        rw [ih, List.flatMap_cons, List.count_append, hcount, Nat.zero_add]
      case isFalse => rw [List.flatMap_cons, List.flatMap_cons, List.count_append,
          List.count_append, ih]

theorem utf8ByteSize_collapsed (text : String) :
    (collapsed text).utf8ByteSize + returns text.toList = text.utf8ByteSize := by
  rw [← length_bytes, ← length_bytes, collapsed, bytes_ofList, bytes_eq_flatMap text]
  induction text.toList with
  | nil => rfl
  | cons c rest ih =>
      rw [collapse, returns_cons]
      split
      case isTrue hpair =>
        have hsize : (String.utf8EncodeChar c).length = 1 := by
          rw [hpair.1]
          decide
        rw [List.flatMap_cons, List.length_append]
        omega
      case isFalse =>
        rw [List.flatMap_cons, List.flatMap_cons, List.length_append, List.length_append]
        omega

theorem newlines_ending (text : String) :
    newlines (ending text) = if text = "" ∨ text.toList.getLast? = some '\n' then 0 else 1 := by
  rw [ending, terminator, newlines, bytes_ofList]
  simp only [String.toList_eq_nil_iff]
  split
  · rfl
  · decide

end Lines
end Rill
