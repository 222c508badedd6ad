import Rill.File.Tree

/-!
# Trees — a tree of files serves as a disk

A path without detours leads through its directories, one name after the other, and what is read is
what lies at its end.  So the files that a tree is made from are the files of a disk.

* `File.PlainName`, `File.PlainPath` — names and paths that lead to what is called so;
* `File.Tree.Passable` — nothing but directories stands in the way of a path;
* `File.Tree.walk_eq`, `File.Tree.read_eq` — following such a path, and reading it;
* `File.Tree.read_ofList` — what a tree is made from is read from it.
-/

namespace Rill
namespace File

/-! ## Plain paths -/

structure PlainName (name : String) : Prop where
  isIdle_eq_false : isIdle name = false
  ne_parent : name ≠ ".."
  slash_not_mem : '/' ∉ name.toList
  nul_not_mem : '\x00' ∉ name.toList
  size_le : name.utf8ByteSize ≤ Tree.maxNameBytes

structure PlainPath (names : List String) : Prop where
  ne_nil : names ≠ []
  plainName : ∀ name ∈ names, PlainName name
  size_lt : ("/".intercalate names).utf8ByteSize < Tree.maxPathBytes

namespace PlainPath

variable {names : List String}

theorem components_eq (h : PlainPath names) : components ("/".intercalate names) = names :=
  components_eq_iff.2 ⟨h.ne_nil, fun name hname => (h.plainName name hname).slash_not_mem, rfl⟩

theorem placeOf_eq (h : PlainPath names) : placeOf ("/".intercalate names) = names := by
  rw [placeOf, h.components_eq, List.filter_eq_self]
  intro name hname
  simp [(h.plainName name hname).isIdle_eq_false]

theorem nul_not_mem (h : PlainPath names) : '\x00' ∉ ("/".intercalate names).toList := by
  intro hmem
  rw [String.toList_intercalate] at hmem
  rcases Text.mem_intercalate hmem with hslash | ⟨part, hpart, hmem⟩
  · exact absurd hslash (by decide)
  · rcases List.mem_map.1 hpart with ⟨name, hname, rfl⟩
    exact (h.plainName name hname).nul_not_mem hmem

/-- Otherwise the first component would be empty. -/
theorem exists_toList_eq_cons (h : PlainPath names) :
    ∃ c rest, ("/".intercalate names).toList = c :: rest ∧ c ≠ '/' := by
  have hempty : "" ∉ names := fun hmem => by
    simpa [isIdle] using (h.plainName "" hmem).isIdle_eq_false
  have hsplit := h.components_eq
  unfold components Text.split at hsplit
  cases hchars : ("/".intercalate names).toList with
  | nil =>
      rw [hchars] at hsplit
      exact absurd (by simp [← hsplit, Text.splitChars]) hempty
  | cons c rest =>
      refine ⟨c, rest, rfl, ?_⟩
      rintro rfl
      rw [hchars] at hsplit
      exact absurd (by simp [← hsplit, Text.splitChars]) hempty

end PlainPath

namespace Tree

variable {t : Tree} {names front rest : List String} {name : String}

/-! ## Following a path -/

/-- What is on the way to a place are directories. -/
def Passable (t : Tree) (names : List String) : Prop :=
  ∀ front name rest, names = front ++ name :: rest → t.find? front = some .directory

theorem enter_of_directory (hdirectory : t.find? front = some .directory) (h : PlainName name) :
    t.enter (.inside front) name =
      if (t.find? (front ++ [name])).isSome then .ok (.inside (front ++ [name]))
      else .error .notFound := by
  have hsize : ¬ maxNameBytes < name.utf8ByteSize := Nat.not_lt.2 h.size_le
  simp [enter, hdirectory, enterDirectory, h.isIdle_eq_false, h.ne_parent, hsize]

/-- Through directories a path leads on and on. -/
theorem foldlM_enter (hrest : ∀ name ∈ rest, PlainName name)
    (hdirectories : ∀ mid more, rest = mid ++ more → t.find? (front ++ mid) = some .directory) :
    rest.foldlM t.enter (.inside front) = .ok (.inside (front ++ rest)) := by
  induction rest generalizing front with
  | nil => simp [pure, Except.pure]
  | cons name rest ih =>
      rcases List.forall_mem_cons.1 hrest with ⟨hname, hrest⟩
      have hfront : t.find? front = some .directory := by
        simpa using hdirectories [] (name :: rest) rfl
      have hnext : t.find? (front ++ [name]) = some .directory := hdirectories [name] rest rfl
      have hmore : ∀ mid more, rest = mid ++ more →
          t.find? (front ++ [name] ++ mid) = some .directory := by
        rintro mid more rfl
        simpa using hdirectories (name :: mid) more rfl
      rw [List.foldlM_cons, enter_of_directory hfront hname, hnext]
      simpa [bind, Except.bind] using ih hrest hmore

theorem walk_eq (h : PlainPath names) (hpassable : t.Passable names) :
    t.walk ("/".intercalate names) =
      if (t.find? names).isSome then .ok (.inside names) else .error .notFound := by
  rcases h.exists_toList_eq_cons with ⟨c, chars, hchars, hslash⟩
  have hstart : ("/".intercalate names).toList.head? ≠ some '/' := by
    rw [hchars]
    simpa using hslash
  rw [walk, h.components_eq, if_neg hstart]
  -- The last name is entered from the directory that the others lead to.
  rcases List.eq_nil_or_concat names with hnil | ⟨way, last, hnames⟩
  · exact absurd hnil h.ne_nil
  · rw [List.concat_eq_append] at hnames
    subst hnames
    have hway : ∀ name ∈ way, PlainName name := fun name hname =>
      h.plainName name (List.mem_append_left _ hname)
    have hlast : PlainName last := h.plainName last (by simp)
    have hwalk : way.foldlM t.enter (.inside []) = .ok (.inside way) := by
      refine foldlM_enter hway fun mid more hmid => ?_
      cases more with
      | nil => exact hpassable mid last [] (by simp [hmid])
      | cons name more => exact hpassable mid name (more ++ [last]) (by simp [hmid])
    have hentered := enter_of_directory (hpassable way last [] rfl) hlast
    rw [List.foldlM_append, hwalk]
    exact (bind_pure (t.enter (.inside way) last)).trans hentered

/-! ## Reading -/

theorem read_eq (h : PlainPath names) (hpassable : t.Passable names) :
    t.read ("/".intercalate names) =
      match t.find? names with
      | some entry => entry.content
      | none => .error .notFound := by
  rcases h.exists_toList_eq_cons with ⟨c, chars, hchars, -⟩
  have hempty : ("/".intercalate names).isEmpty = false := by
    refine Bool.eq_false_iff.2 fun hnil => ?_
    rw [String.isEmpty_iff.1 hnil] at hchars
    cases hchars
  have hsize : ¬ maxPathBytes ≤ ("/".intercalate names).utf8ByteSize := Nat.not_le.2 h.size_lt
  have hnul : ("/".intercalate names).toList.contains '\x00' = false := by
    simpa using h.nul_not_mem
  simp only [read, hnul, hempty, hsize, walk_eq h hpassable, Bool.false_eq_true, if_false]
  cases hfind : t.find? names <;> simp [hfind]

/-! ## Trees that are made from a list of files -/

theorem find?_of_entries {before after : List (List String × Entry)} {entry : Entry}
    (hentries : t.entries = before ++ (names, entry) :: after)
    (hlast : ∀ x ∈ after, x.1 ≠ names) : t.find? names = some entry := by
  have hafter : after.reverse.find? (fun x => x.1 == names) = none := by
    rw [List.find?_eq_none]
    intro x hx
    simpa using hlast x (List.mem_reverse.1 hx)
  simp [find?, hentries, List.find?_append, hafter]

theorem find?_eq_directory (hentries : ∀ x ∈ t.entries, x.1 = front → x.2 = .directory)
    (hbelow : ∃ x ∈ t.entries, front <+: x.1) : t.find? front = some .directory := by
  unfold find?
  split
  case h_1 x hx =>
    have hplace : x.1 = front := by simpa using List.find?_some hx
    rw [hentries x (List.mem_reverse.1 (List.mem_of_find?_eq_some hx)) hplace]
  case h_2 =>
    rcases hbelow with ⟨x, hx, hprefix⟩
    have hany : (t.entries.any fun entry => front.isPrefixOf entry.1) = true :=
      List.any_eq_true.2 ⟨x, hx, List.isPrefixOf_iff_prefix.2 hprefix⟩
    simp [hany]

/-- Of the entries for one place the last one is read, if no file lies on the way there. -/
theorem read_ofList {listed before after : List (String × Entry)} {entry : Entry}
    (h : PlainPath names) (hlisted : listed = before ++ ("/".intercalate names, entry) :: after)
    (hlast : ∀ x ∈ after, placeOf x.1 ≠ names)
    (hway : ∀ x ∈ listed, placeOf x.1 <+: names → placeOf x.1 ≠ names → x.2 = .directory) :
    (ofList listed).read ("/".intercalate names) = entry.content := by
  have hentries : (ofList listed).entries = before.map (fun x => (placeOf x.1, x.2)) ++
      (names, entry) :: after.map (fun x => (placeOf x.1, x.2)) := by
    simp [ofList, hlisted, h.placeOf_eq]
  have hbehind : ∀ x ∈ after.map (fun x => (placeOf x.1, x.2)), x.1 ≠ names := by
    intro x hx
    rcases List.mem_map.1 hx with ⟨y, hy, rfl⟩
    exact hlast y hy
  have hpassable : (ofList listed).Passable names := by
    intro front name rest hnames
    have hshort : front ≠ names := by simp [hnames]
    have hprefix : front <+: names := ⟨name :: rest, hnames.symm⟩
    refine find?_eq_directory ?_ ⟨(names, entry), by simp [hentries], hprefix⟩
    rintro x hx rfl
    rcases List.mem_map.1 hx with ⟨y, hy, rfl⟩
    exact hway y hy hprefix hshort
  rw [read_eq h hpassable, find?_of_entries hentries hbehind]

end Tree

end File
end Rill
