import Rill.Command

/-!
# Flags — what a list of flags comes to

Flags are read one after the other.  The first one that cannot be understood decides what is said,
whatever the others ask for.

* `Command.Accepted flag` — a flag that can be understood;
* `Command.FirstError flags e` — `e` is what is wrong with the first of the flags that cannot be;
* `Command.parseOptions_eq_error_iff` — that is what reading the flags fails with;
* `Command.exists_parseOptions_eq_ok` — and it fails for no other reason;
* `Command.flagTable`, `Command.Complaint flag e` — the flags that there are, and what is wrong with
  any other;
* `Command.parseOptions_eq_ok_iff` — the last flag has its way, if all can be understood;
* `Command.parseOptions_last_or_first` — both together, flag by flag.
-/

namespace Rill
namespace Command

def Accepted (flag : String) : Prop :=
  ∃ policy, parseOption flag = .ok policy

def FirstError (flags : List String) (e : OptionError) : Prop :=
  ∃ before flag after, flags = before ++ flag :: after ∧ (∀ f ∈ before, Accepted f) ∧
    parseOption flag = .error e

variable {flag : String} {flags : List String} {policy : Policy} {e e' : OptionError}

theorem Accepted.ne_error (h : Accepted flag) : parseOption flag ≠ .error e := by
  rcases h with ⟨policy, hpolicy⟩
  simp [hpolicy]

/-! ## The first flag and the others -/

/-- What can be understood is passed over. -/
theorem firstError_cons_of_ok (h : parseOption flag = .ok policy) :
    FirstError (flag :: flags) e ↔ FirstError flags e := by
  constructor
  · rintro ⟨before, f, after, hflags, hbefore, hf⟩
    cases before with
    | nil =>
        obtain ⟨rfl, rfl⟩ := List.cons.inj hflags
        simp [h] at hf
    | cons g before =>
        obtain ⟨rfl, rfl⟩ := List.cons.inj hflags
        exact ⟨before, f, after, rfl, (List.forall_mem_cons.1 hbefore).2, hf⟩
  · rintro ⟨before, f, after, rfl, hbefore, hf⟩
    exact ⟨flag :: before, f, after, rfl, List.forall_mem_cons.2 ⟨⟨policy, h⟩, hbefore⟩, hf⟩

/-- What cannot be understood is not. -/
theorem firstError_cons_of_error (h : parseOption flag = .error e') :
    FirstError (flag :: flags) e ↔ e' = e := by
  constructor
  · rintro ⟨before, f, after, hflags, hbefore, hf⟩
    cases before with
    | nil =>
        obtain ⟨rfl, rfl⟩ := List.cons.inj hflags
        exact Except.error.inj (h.symm.trans hf)
    | cons g before =>
        obtain ⟨rfl, rfl⟩ := List.cons.inj hflags
        exact absurd h (List.forall_mem_cons.1 hbefore).1.ne_error
  · rintro rfl
    exact ⟨[], flag, flags, rfl, by simp, h⟩

theorem exists_firstError (h : ∃ flag ∈ flags, ¬ Accepted flag) : ∃ e, FirstError flags e := by
  induction flags with
  | nil => simp at h
  | cons flag flags ih =>
      cases hflag : parseOption flag with
      | ok policy =>
          rcases h with ⟨f, hmem, hf⟩
          rcases List.mem_cons.1 hmem with rfl | hmem
          · exact absurd ⟨policy, hflag⟩ hf
          · rcases ih ⟨f, hmem, hf⟩ with ⟨e, he⟩
            exact ⟨e, (firstError_cons_of_ok hflag).2 he⟩
      | error e => exact ⟨e, (firstError_cons_of_error hflag).2 rfl⟩

theorem FirstError.exists_mem (h : FirstError flags e) : ∃ flag ∈ flags, ¬ Accepted flag := by
  rcases h with ⟨before, flag, after, rfl, -, hflag⟩
  exact ⟨flag, by simp, fun haccepted => haccepted.ne_error hflag⟩

/-! ## Reading them -/

/-- The policy that the flags in front have led to makes no difference to what is an error. -/
theorem foldlM_parseOption_eq_error_iff :
    flags.foldlM (fun _ flag => parseOption flag) policy = .error e ↔ FirstError flags e := by
  induction flags generalizing policy with
  | nil => simp [FirstError, pure, Except.pure]
  | cons flag flags ih =>
      rw [List.foldlM_cons]
      cases hflag : parseOption flag with
      | ok next =>
          rw [firstError_cons_of_ok hflag]
          exact ih
      | error e' =>
          rw [firstError_cons_of_error hflag]
          constructor
          · exact Except.error.inj
          · rintro rfl
            rfl

theorem parseOptions_eq_error_iff : parseOptions flags = .error e ↔ FirstError flags e :=
  foldlM_parseOption_eq_error_iff

theorem exists_parseOptions_eq_ok (h : ∀ flag ∈ flags, Accepted flag) :
    ∃ policy, parseOptions flags = .ok policy := by
  cases hparse : parseOptions flags with
  | ok policy => exact ⟨policy, rfl⟩
  | error e =>
      rcases (parseOptions_eq_error_iff.1 hparse).exists_mem with ⟨flag, hmem, hflag⟩
      exact absurd (h flag hmem) hflag

/-! ## What a flag says -/

/-- The flags that can be understood, and the policies that they name. -/
def flagTable : List (String × Policy) :=
  [("--on-unknown=drop", .drop), ("--on-unknown=error", .errorToken)]

/-- What is wrong with a flag that is not in the table: it names no policy, or it is no flag for a
policy at all. -/
inductive Complaint (flag : String) : OptionError → Prop
  | policy {value : String} :
      flag = "--on-unknown=" ++ value → Complaint flag (.unknownPolicy value)
  | flag : (∀ value, flag ≠ "--on-unknown=" ++ value) → Complaint flag (.unknownFlag flag)

theorem flagValue?_eq_some_iff {value : String} :
    flagValue? flag = some value ↔ flag = "--on-unknown=" ++ value := by
  have hlist : flag = "--on-unknown=" ++ value ↔
      flag.toList = policyFlag.toList ++ value.toList := by
    rw [← String.toList_inj, String.toList_append]
    rfl
  have hlength : policyFlag.length = policyFlag.toList.length := String.length_toList.symm
  rw [hlist, flagValue?, hlength]
  constructor
  · intro h
    split at h
    case isTrue hbegins =>
      rcases List.isPrefixOf_iff_prefix.1 hbegins with ⟨rest, hrest⟩
      rw [← hrest, List.drop_left, Option.some.injEq] at h
      rw [← hrest, ← h, String.toList_ofList]
    case isFalse => cases h
  · intro h
    rw [h, List.drop_left, String.ofList_toList]
    exact if_pos (List.isPrefixOf_iff_prefix.2 (List.prefix_append _ _))

theorem flagValue?_eq_none_iff :
    flagValue? flag = none ↔ ∀ value, flag ≠ "--on-unknown=" ++ value := by
  simp only [Option.eq_none_iff_forall_ne_some, ne_eq, flagValue?_eq_some_iff]

theorem mem_flagTable_iff : (flag, policy) ∈ flagTable ↔
    ∃ value, flagValue? flag = some value ∧ Policy.ofName? value = some policy := by
  simp only [flagValue?_eq_some_iff]
  constructor
  · intro h
    simp only [flagTable, List.mem_cons, Prod.mk.injEq, List.not_mem_nil, or_false] at h
    rcases h with ⟨rfl, rfl⟩ | ⟨rfl, rfl⟩
    · exact ⟨"drop", by decide +kernel, rfl⟩
    · exact ⟨"error", by decide +kernel, rfl⟩
  · rintro ⟨value, rfl, hvalue⟩
    unfold Policy.ofName? at hvalue
    split at hvalue
    · cases hvalue
      decide +kernel
    · cases hvalue
      decide +kernel
    · cases hvalue

theorem parseOption_eq_ok_iff : parseOption flag = .ok policy ↔ (flag, policy) ∈ flagTable := by
  rw [mem_flagTable_iff, parseOption]
  cases flagValue? flag with
  | none => simp
  | some value => cases hname : Policy.ofName? value <;> simp [hname]

theorem accepted_iff :
    Accepted flag ↔ flag = "--on-unknown=drop" ∨ flag = "--on-unknown=error" := by
  simp [Accepted, parseOption_eq_ok_iff, flagTable, exists_or]

theorem complaint_of_parseOption_eq_error (h : parseOption flag = .error e) :
    Complaint flag e := by
  unfold parseOption at h
  split at h
  case h_1 hnone =>
    cases h
    exact .flag (flagValue?_eq_none_iff.1 hnone)
  case h_2 value hvalue =>
    split at h
    · cases h
    · cases h
      exact .policy (flagValue?_eq_some_iff.1 hvalue)

/-- There is one thing to say about a flag. -/
theorem Complaint.eq (h : Complaint flag e) (h' : Complaint flag e') : e = e' := by
  cases h with
  | policy hvalue =>
      cases h' with
      | policy hvalue' => rw [(String.append_right_inj _).1 (hvalue.symm.trans hvalue')]
      | flag hflag' => exact absurd hvalue (hflag' _)
  | flag hflag =>
      cases h' with
      | policy hvalue' => exact absurd hvalue' (hflag _)
      | flag _ => rfl

theorem parseOption_eq_error_iff :
    parseOption flag = .error e ↔ ¬ Accepted flag ∧ Complaint flag e := by
  constructor
  · intro h
    exact ⟨fun haccepted => haccepted.ne_error h, complaint_of_parseOption_eq_error h⟩
  · rintro ⟨hflag, hcomplaint⟩
    cases hparse : parseOption flag with
    | ok policy => exact absurd ⟨policy, hparse⟩ hflag
    | error e' => rw [(complaint_of_parseOption_eq_error hparse).eq hcomplaint]

/-! ## The last flag -/

/-- If all flags can be understood, the policy in front of them is forgotten. -/
theorem foldlM_parseOption_eq_ok_iff {first : Policy} :
    flags.foldlM (fun _ flag => parseOption flag) first = .ok policy ↔
      (∀ flag ∈ flags, Accepted flag) ∧
        flags.getLast?.elim (.ok first) parseOption = .ok policy := by
  induction flags generalizing first with
  | nil => simp [pure, Except.pure]
  | cons flag flags ih =>
      rw [List.foldlM_cons, List.forall_mem_cons, List.getLast?_cons, Option.elim_some]
      cases hflag : parseOption flag with
      | ok next =>
          -- What this flag asks for is the policy in front of the others.
          have haccepted : Accepted flag := ⟨next, hflag⟩
          refine Iff.trans ih ?_
          cases flags.getLast? <;> simp [haccepted, hflag]
      | error e =>
          constructor
          · rintro ⟨⟩
          · rintro ⟨⟨haccepted, -⟩, -⟩
            exact absurd hflag haccepted.ne_error

theorem parseOptions_eq_ok_iff : parseOptions flags = .ok policy ↔
    (∀ flag ∈ flags, Accepted flag) ∧
      ((flags = [] ∧ policy = .drop) ∨
        ∃ flag, flags.getLast? = some flag ∧ (flag, policy) ∈ flagTable) := by
  refine Iff.trans foldlM_parseOption_eq_ok_iff (and_congr_right' ?_)
  cases hlast : flags.getLast? with
  | none =>
      have hdefault : (default : Policy) = .drop := rfl
      simp [List.getLast?_eq_none_iff.1 hlast, hdefault, eq_comm]
  | some flag =>
      have hne : flags ≠ [] := List.ne_nil_of_mem (List.mem_of_getLast? hlast)
      simp [hne, parseOption_eq_ok_iff]

/-- Flags are understood if each is one of the two that there are, and then the last of them has its
way; without any, unknown words are dropped.  Otherwise the first that is neither is complained
about, whatever comes after it: by what stands behind `--on-unknown=`, if it begins so, and in full
if it does not. -/
theorem parseOptions_last_or_first (flags : List String) :
    ((∃ policy, parseOptions flags = .ok policy) ↔
      ∀ flag ∈ flags, flag = "--on-unknown=drop" ∨ flag = "--on-unknown=error") ∧
    (∀ policy, parseOptions flags = .ok policy ↔
      (∀ flag ∈ flags, flag = "--on-unknown=drop" ∨ flag = "--on-unknown=error") ∧
      ((flags = [] ∧ policy = .drop) ∨
        (flags.getLast? = some "--on-unknown=drop" ∧ policy = .drop) ∨
        (flags.getLast? = some "--on-unknown=error" ∧ policy = .errorToken))) ∧
    (∀ e, parseOptions flags = .error e ↔
      ∃ before flag after, flags = before ++ flag :: after ∧
        (∀ f ∈ before, f = "--on-unknown=drop" ∨ f = "--on-unknown=error") ∧
        ¬ (flag = "--on-unknown=drop" ∨ flag = "--on-unknown=error") ∧ Complaint flag e) ∧
    ∀ before flag, (∀ f ∈ before, f = "--on-unknown=drop" ∨ f = "--on-unknown=error") →
      ¬ (flag = "--on-unknown=drop" ∨ flag = "--on-unknown=error") →
        ∃ e, Complaint flag e ∧ ∀ after, parseOptions (before ++ flag :: after) = .error e := by
  simp only [← accepted_iff]
  refine ⟨⟨?_, exists_parseOptions_eq_ok⟩, ?_, ?_, ?_⟩
  · rintro ⟨policy, hpolicy⟩
    exact (parseOptions_eq_ok_iff.1 hpolicy).1
  · intro policy
    rw [parseOptions_eq_ok_iff]
    refine and_congr_right' (or_congr_right ?_)
    cases flags.getLast? <;> simp [flagTable]
  · intro e
    rw [parseOptions_eq_error_iff, FirstError]
    simp only [parseOption_eq_error_iff]
  · intro before flag hbefore hflag
    cases hparse : parseOption flag with
    | ok policy => exact absurd ⟨policy, hparse⟩ hflag
    | error e =>
        refine ⟨e, complaint_of_parseOption_eq_error hparse, ?_⟩
        intro after
        exact parseOptions_eq_error_iff.2 ⟨before, flag, after, rfl, hbefore, hparse⟩

/-- The flag without a `=` is another flag, and one `=` too many is part of the name of a policy. -/
example : parseOptions ["--on-unknown=error", "--on-unknown==drop", "--on-unknown"] =
    .error (.unknownPolicy "=drop") := rfl

end Command
end Rill
