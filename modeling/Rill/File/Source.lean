import Rill.Log.Entry

/-!
# Source — the text of a file, ready to be lexed

Files come with `\n` or `\r\n` behind their lines.  The lexer is fed with lines that all end in
`\n`, the last one too.

* `File.Failure`, `File.ReadError` — why a file could not be read, and with `message` the wording;
* `Lines.split`, `Lines.join` — the lines of a text without their ends, and lines put together, each
  with its end;
* `Lines.normalize` — the one after the other;
* `File.Disk` — what reading each path yields;
* `File.Source` — a text with one kind of line end, and the size of the file that it is from;
* `File.readSource` — reading it.
-/

namespace Rill

/-! ## Failures -/

namespace File

inductive Failure
  | notFound
  | permissionDenied
  | notUtf8
  | isDirectory
  | notDirectory
  | nameTooLong
  | nulInPath
  | other (reason : String)
  deriving DecidableEq, Repr

/-- The system's words for a cause that has no message of its own. -/
def Failure.reason : Failure → String
  | notFound => "No such file or directory (os error 2)"
  | permissionDenied => "Permission denied (os error 13)"
  | notUtf8 => "stream did not contain valid UTF-8"
  | isDirectory => "Is a directory (os error 21)"
  | notDirectory => "Not a directory (os error 20)"
  | nameTooLong => "File name too long (os error 36)"
  | nulInPath => "file name contained an unexpected NUL byte"
  | other reason => reason

structure ReadError where
  path : String
  cause : Failure
  deriving DecidableEq, Repr

def ReadError.message (e : ReadError) : String :=
  match e.cause with
  | .notFound => "cannot find file '" ++ e.path ++ "'"
  | .permissionDenied => "permission denied reading '" ++ e.path ++ "'"
  | .notUtf8 => "'" ++ e.path ++ "' contains invalid UTF-8 data"
  | cause => "error reading '" ++ e.path ++ "': " ++ cause.reason

end File

/-! ## Line ends -/

namespace Lines

/-- One `\r` right before a `\n` belongs to the line end; any other is part of its line. -/
def dropReturn (line : List Char) : List Char :=
  if line.getLast? = some '\r' then line.dropLast else line

theorem length_tail_dropWhile_lt (text : List Char) (h : text.dropWhile (· != '\n') ≠ []) :
    (text.dropWhile (· != '\n')).tail.length < text.length := by
  have hle := (List.dropWhile_suffix (· != '\n') (l := text)).length_le
  have hpos := List.length_pos_iff.2 h
  rw [List.length_tail]
  omega

/-- A line runs up to its `\n`.  What follows the last `\n` is a line only if it is not empty, and
has no end to drop a `\r` from. -/
def split (text : List Char) : List (List Char) :=
  if _h : text.dropWhile (· != '\n') ≠ [] then
    dropReturn (text.takeWhile (· != '\n')) :: split (text.dropWhile (· != '\n')).tail
  else if text.isEmpty then []
  else [text]
termination_by text.length
decreasing_by exact length_tail_dropWhile_lt text _h

def join (lines : List (List Char)) : List Char :=
  lines.flatMap (· ++ ['\n'])

def normalize (text : String) : String :=
  String.ofList (join (split text.toList))

end Lines

/-! ## Sources -/

namespace File

abbrev Disk := String → Except Failure ByteArray

structure Source where
  path : String
  text : String
  size : Nat
  deriving DecidableEq, Repr

namespace Source

/-- The log notes the size of the file as it is on the disk. -/
def event (s : Source) : Log.Event :=
  .sourceRead s.path s.size

end Source

def decode (content : ByteArray) : Except Failure String :=
  match String.fromUTF8? content with
  | some text => .ok text
  | none => .error .notUtf8

/-- What a path and the outcome of reading it amount to. -/
def sourceOf (path : String) (content : Except Failure ByteArray) : Except ReadError Source :=
  match content >>= decode with
  | .ok text => .ok ⟨path, Lines.normalize text, text.utf8ByteSize⟩
  | .error cause => .error ⟨path, cause⟩

def readSource (disk : Disk) (path : String) : Except ReadError Source :=
  sourceOf path (disk path)

end File
end Rill
