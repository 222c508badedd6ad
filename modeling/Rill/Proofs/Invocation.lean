import Rill.Proofs.Flags
import Rill.Proofs.Rendering

/-!
# Invocation — what comes of a call of the program

* `Command.ofArgs_lex`, `Command.ofArgs_of_not_mem` — what a call asks for, by its first word;
* `Command.run_lex` — the three ends that a listing can come to: the flags are not understood, the
  file cannot be read, or its tokens are shown;
* `Command.run_shorthand` — the name of a source is as good as `lex` in front of it, and any other
  first word that is no command is turned down.
-/

namespace Rill

open Utf8

namespace File

/-- What is on the disk at a path, read as a text. -/
def readText (disk : Disk) (path : String) : Except Failure String :=
  disk path >>= decode

variable {disk : Disk} {path text : String} {cause : Failure}

theorem readSource_of_error (h : readText disk path = .error cause) :
    readSource disk path = .error ⟨path, cause⟩ := by
  unfold readText at h
  simp [readSource, sourceOf, h]

theorem readSource_of_ok (h : readText disk path = .ok text) :
    readSource disk path = .ok ⟨path, Lines.normalize text, text.utf8ByteSize⟩ := by
  unfold readText at h
  simp [readSource, sourceOf, h]

end File

namespace Command

/-! ## Requests -/

/-- The first words that are taken for a command, and not for a file. -/
def commandWords : List String :=
  ["lex", "help", "--help", "-h", "version", "--version", "-V"]

theorem ofArgs_lex (path : String) (flags : List String) :
    Request.ofArgs ("lex" :: path :: flags) = listRequest path flags := rfl

theorem ofArgs_of_not_mem {command : String} (h : command ∉ commandWords) (flags : List String) :
    Request.ofArgs (command :: flags) =
      if isSourceName command then listRequest command flags
      else .answer (unknownCommand command) := by
  -- All equations but the last are for a command word, or for no word at all.
  unfold Request.ofArgs
  split <;> simp_all [commandWords]

/-- The extension is compared without regard to case. -/
theorem isSourceName_iff {word : String} : isSourceName word = true ↔
    ∃ extension, File.extension? word = some extension ∧ extension.toLower = "rill" := by
  unfold isSourceName
  cases File.extension? word <;> simp

theorem not_mem_commandWords {command : String} (h : isSourceName command = true) :
    command ∉ commandWords := by
  have hwords : ∀ word ∈ commandWords, isSourceName word = false := by decide +kernel
  intro hmem
  rw [hwords command hmem] at h
  cases h

theorem listRequest_of_error {path : String} {flags : List String} {e : OptionError}
    (h : parseOptions flags = .error e) :
    listRequest path flags = .answer (.failure e.message) := by
  simp [listRequest, h]

theorem listRequest_of_ok {path : String} {flags : List String} {policy : Policy}
    (h : parseOptions flags = .ok policy) : listRequest path flags = .list path policy := by
  simp [listRequest, h]

/-! ## Runs -/

variable {disk : File.Disk} {logText : List Log.Entry → String} {path : String}
  {flags : List String}

/-- Without an answer that is there already, the disk is read. -/
theorem run_lex_of_ok {policy : Policy} (h : parseOptions flags = .ok policy) :
    run disk logText ("lex" :: path :: flags) =
      listOutcome logText policy (File.readSource disk path) := by
  rw [run, ofArgs_lex, listRequest_of_ok h]

theorem run_lex_of_error {e : OptionError} (h : parseOptions flags = .error e) :
    run disk logText ("lex" :: path :: flags) = .failure e.message := by
  rw [run, ofArgs_lex, listRequest_of_error h]

/-- A listing, here one whose log is not asked for, comes to one of three ends.  If a flag cannot be
understood, the first such flag is complained about, whatever is on the disk.  Otherwise the file is
read: if that fails, the cause is told, and if not, the tokens of its text are shown on a line, and
on one only. -/
theorem run_lex (path : String) (flags : List String) :
    ((∃ flag ∈ flags, ¬ Accepted flag) →
      ∃ e, parseOptions flags = .error e ∧ FirstError flags e ∧
        ∀ disk, run disk Log.silent ("lex" :: path :: flags) =
          ⟨1, "", "error: " ++ e.message ++ "\n"⟩) ∧
    ((∀ flag ∈ flags, Accepted flag) →
      ∃ policy, parseOptions flags = .ok policy ∧ ∀ disk,
        (∀ cause, File.readText disk path = .error cause →
          run disk Log.silent ("lex" :: path :: flags) =
            ⟨1, "", "error: " ++ (File.ReadError.mk path cause).message ++ "\n"⟩) ∧
        ∀ text, File.readText disk path = .ok text →
          ∃ stdout, run disk Log.silent ("lex" :: path :: flags) = ⟨0, stdout, ""⟩ ∧
            stdout = (lex (Lines.normalize text) policy).render ++ "\n" ∧ newlines stdout = 1) := by
  constructor
  · intro h
    rcases exists_firstError h with ⟨e, he⟩
    have hparse : parseOptions flags = .error e := parseOptions_eq_error_iff.2 he
    exact ⟨e, hparse, he, fun _ => run_lex_of_error hparse⟩
  · intro h
    rcases exists_parseOptions_eq_ok h with ⟨policy, hparse⟩
    refine ⟨policy, hparse, fun disk => ⟨?_, ?_⟩⟩
    · intro cause hcause
      rw [run_lex_of_ok hparse, File.readSource_of_error hcause]
      rfl
    · intro text htext
      refine ⟨(lex (Lines.normalize text) policy).render ++ "\n", ?_, rfl, ?_⟩
      · rw [run_lex_of_ok hparse, File.readSource_of_ok htext]
        rfl
      · -- The listing has no line end of its own, so there is only the one behind it.
        have hend : newlines "\n" = 1 := by decide +kernel
        simp [hend]

/-- What is wrong with a flag is said even where the file is missing. -/
example : run (fun _ => .error .notFound) Log.silent ["lex", "a.rill", "--on-unknown=", "-x"] =
    ⟨1, "", "error: unknown value '' for --on-unknown (expected 'drop' or 'error')\n"⟩ := by
  decide +kernel

/-- For the name of a source, `lex` need not be said: it makes no difference to what the program
does.  Any other word that is no command is turned down, whatever follows it and whatever is on the
disk. -/
theorem run_shorthand (word : String) :
    ((∃ extension, File.extension? word = some extension ∧ extension.toLower = "rill") →
      ∀ disk logText flags, run disk logText (word :: flags) =
        run disk logText ("lex" :: word :: flags)) ∧
    ((¬ ∃ extension, File.extension? word = some extension ∧ extension.toLower = "rill") →
      word ∉ commandWords →
        ∀ disk logText flags, run disk logText (word :: flags) =
          ⟨1, usage, "Unknown command: " ++ word ++ "\n\n"⟩) := by
  rw [← isSourceName_iff]
  constructor
  · intro hname disk logText flags
    rw [run, run, ofArgs_lex, ofArgs_of_not_mem (not_mem_commandWords hname), if_pos hname]
  · intro hname hword disk logText flags
    rw [run, ofArgs_of_not_mem hword, if_neg hname]
    rfl

/-- A name may have dots elsewhere, and a dot at its start is part of it. -/
example : isSourceName "src.d/main.v2.RiLL/." = true ∧ isSourceName "src.rill/.rill" = false := by
  decide +kernel

end Command
end Rill
