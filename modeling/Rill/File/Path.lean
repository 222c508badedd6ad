import Rill.Text.Split

/-!
# Path — the names of files, taken apart

* `File.components` — what stands between the slashes of a path;
* `File.fileName?`, `File.extension?` — the last name on a path, and what follows its last dot;
* `File.extension?_eq_some_iff` — which paths have an extension, by the names that they are made of.
-/

namespace Rill
namespace File

def components (path : String) : List String :=
  Text.split '/' path

/-- A component that leads nowhere: between two slashes, behind the last one, or a single dot. -/
def isIdle (component : String) : Bool :=
  component == "" || component == "."

/-- Idle components at the end do not count.  A path up to the parent has no file name. -/
def fileName? (path : String) : Option String :=
  match (components path).reverse.dropWhile isIdle with
  | [] => none
  | name :: _ => if name = ".." then none else some name

/-- A dot at the very start of a name belongs to the name. -/
def extension? (path : String) : Option String :=
  (fileName? path).bind fun name =>
    let reversed := name.toList.reverse
    if (reversed.dropWhile (· != '.')).length ≤ 1 then none
    else some (String.ofList (reversed.takeWhile (· != '.')).reverse)

/-! ## What a path is made of -/

theorem components_eq_iff {path : String} {parts : List String} :
    components path = parts ↔
      parts ≠ [] ∧ (∀ part ∈ parts, '/' ∉ part.toList) ∧ "/".intercalate parts = path :=
  Text.split_eq_iff

/-- A run of the class `p`, and behind it something else. -/
theorem takeWhile_dropWhile_eq_iff {α : Type} {p : α → Bool} {all run rest : List α} {a : α} :
    all.takeWhile p = run ∧ all.dropWhile p = a :: rest ↔
      all = run ++ a :: rest ∧ (∀ b ∈ run, p b = true) ∧ p a = false := by
  constructor
  · rintro ⟨rfl, hrest⟩
    have hfirst := List.head?_dropWhile_not p all
    rw [hrest] at hfirst
    refine ⟨?_, List.all_eq_true.1 List.all_takeWhile, by simpa using hfirst⟩
    rw [← hrest, List.takeWhile_append_dropWhile]
  · rintro ⟨rfl, hrun, ha⟩
    rw [List.takeWhile_append_of_pos hrun, List.dropWhile_append_of_pos hrun]
    simp [ha]

/-- The file name is the last component that is not idle. -/
theorem fileName?_eq_some_iff {path name : String} :
    fileName? path = some name ↔ ∃ front idle, components path = front ++ name :: idle ∧
      (∀ part ∈ idle, isIdle part = true) ∧ isIdle name = false ∧ name ≠ ".." := by
  have hread : fileName? path = some name ↔
      ∃ rest, (components path).reverse.dropWhile isIdle = name :: rest ∧ name ≠ ".." := by
    unfold fileName?
    cases (components path).reverse.dropWhile isIdle with
    | nil => simp
    | cons last rest =>
        by_cases hparent : last = ".."
        · simp only [hparent, if_true, List.cons.injEq]
          grind
        · simp only [hparent, if_false, Option.some.injEq, List.cons.injEq]
          grind
  rw [hread]
  constructor
  · rintro ⟨rest, hlast, hparent⟩
    rcases takeWhile_dropWhile_eq_iff.1 ⟨rfl, hlast⟩ with ⟨hparts, hidle, hname⟩
    refine ⟨rest.reverse, ((components path).reverse.takeWhile isIdle).reverse, ?_, ?_, hname,
      hparent⟩
    · simpa using congrArg List.reverse hparts
    · exact fun part hpart => hidle part (List.mem_reverse.1 hpart)
  · rintro ⟨front, idle, hparts, hidle, hname, hparent⟩
    have hreversed : (components path).reverse = idle.reverse ++ name :: front.reverse := by
      simp [hparts]
    have hidle' : ∀ part ∈ idle.reverse, isIdle part = true := fun part hpart =>
      hidle part (List.mem_reverse.1 hpart)
    exact ⟨front.reverse, (takeWhile_dropWhile_eq_iff.2 ⟨hreversed, hidle', hname⟩).2, hparent⟩

/-! ## Which paths have an extension -/

theorem extension?_eq_some_iff_fileName? {path extension : String} :
    extension? path = some extension ↔ ∃ stem, fileName? path = some (stem ++ "." ++ extension) ∧
      stem ≠ "" ∧ '.' ∉ extension.toList := by
  unfold extension?
  rw [Option.bind_eq_some_iff]
  -- A name is read from its end, so its extension is what comes before the first dot.
  constructor
  · rintro ⟨name, hname, h⟩
    cases hstem : name.toList.reverse.dropWhile (· != '.') with
    | nil => simp [hstem] at h
    | cons c stem =>
        rcases takeWhile_dropWhile_eq_iff.1 ⟨rfl, hstem⟩ with ⟨hchars, hextension, hdot⟩
        have hc : c = '.' := by simpa using hdot
        subst hc
        have hrest : ¬ stem = [] ∧
            String.ofList (name.toList.reverse.takeWhile (· != '.')).reverse = extension := by
          simpa [hstem] using h
        rcases hrest with ⟨hne, rfl⟩
        have hparts : name = String.ofList stem.reverse ++ "." ++
            String.ofList (name.toList.reverse.takeWhile (· != '.')).reverse := by
          apply String.toList_inj.1
          simpa using congrArg List.reverse hchars
        refine ⟨String.ofList stem.reverse, hparts ▸ hname, by simpa using hne, ?_⟩
        intro hmem
        exact absurd (hextension '.' (by simpa using hmem)) (by decide)
  · rintro ⟨stem, hname, hstem, hextension⟩
    have hchars : (stem ++ "." ++ extension).toList.reverse =
        extension.toList.reverse ++ '.' :: stem.toList.reverse := by simp
    have hother : ∀ c ∈ extension.toList.reverse, (c != '.') = true := by
      intro c hc
      refine bne_iff_ne.2 ?_
      rintro rfl
      exact hextension (List.mem_reverse.1 hc)
    rcases takeWhile_dropWhile_eq_iff.2 ⟨hchars, hother, by decide⟩ with ⟨htake, hdrop⟩
    refine ⟨_, hname, ?_⟩
    simp only [htake, hdrop]
    simp [hstem]

theorem isIdle_append_dot {stem : String} (h : stem ≠ "") (extension : String) :
    isIdle (stem ++ "." ++ extension) = false := by
  have hone : ".".length = 1 := rfl
  -- The stem and the dot make at least two characters.
  have hlength : 2 ≤ (stem ++ "." ++ extension).length := by
    have hstem : stem.length ≠ 0 := by simpa using h
    rw [String.length_append, String.length_append, hone]
    omega
  rw [Bool.eq_false_iff]
  intro hidle
  simp only [isIdle, Bool.or_eq_true, beq_iff_eq] at hidle
  rcases hidle with hidle | hidle
  · simp [hidle] at hlength
  · simp [hidle, hone] at hlength

/-- The components of a path that has an extension are those in front of a name, that name, which
its last dot cuts in two, and idle ones. -/
theorem extension?_eq_some_iff {path extension : String} :
    extension? path = some extension ↔ ∃ front stem idle,
      "/".intercalate (front ++ (stem ++ "." ++ extension) :: idle) = path ∧
      (∀ part ∈ front ++ (stem ++ "." ++ extension) :: idle, '/' ∉ part.toList) ∧
      (∀ part ∈ idle, isIdle part = true) ∧
      stem ++ "." ++ extension ≠ ".." ∧ stem ≠ "" ∧ '.' ∉ extension.toList := by
  rw [extension?_eq_some_iff_fileName?]
  constructor
  · rintro ⟨stem, hname, hstem, hdot⟩
    rcases fileName?_eq_some_iff.1 hname with ⟨front, idle, hparts, hidle, -, hparent⟩
    rcases components_eq_iff.1 hparts with ⟨-, hslash, hpath⟩
    exact ⟨front, stem, idle, hpath, hslash, hidle, hparent, hstem, hdot⟩
  · rintro ⟨front, stem, idle, hpath, hslash, hidle, hparent, hstem, hdot⟩
    have hparts : components path = front ++ (stem ++ "." ++ extension) :: idle :=
      components_eq_iff.2 ⟨by simp, hslash, hpath⟩
    exact ⟨stem, fileName?_eq_some_iff.2 ⟨front, idle, hparts, hidle,
      isIdle_append_dot hstem extension, hparent⟩, hstem, hdot⟩

end File
end Rill
