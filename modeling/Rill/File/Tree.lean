import Rill.File.Path
import Rill.File.Source

/-!
# Tree — a working directory held in memory

* `File.Entry`, `File.Tree` — files and directories, and where they lie;
* `File.Tree.find?` — what lies at a place;
* `File.Tree.enter`, `File.Tree.walk` — following a path one component at a time;
* `File.Tree.read` — the tree as a disk: the content of the file that a path leads to, or why there
  is none.
-/

namespace Rill
namespace File

/-! ## Files and directories -/

inductive Entry
  | file (content : ByteArray) (readable : Bool)
  | directory

/-- What there is to read of an entry. -/
def Entry.content : Entry → Except Failure ByteArray
  | file content true => .ok content
  | file _ false => .error .permissionDenied
  | directory => .error .isDirectory

/-- Where a path leads to, if no component of it leads back. -/
def placeOf (path : String) : List String :=
  (components path).filter fun part => !isIdle part

/-- Every entry lies in a directory, listed or not.  Of two entries at one place the later one
counts. -/
structure Tree where
  entries : List (List String × Entry)

namespace Tree

/-- A tree from paths and what lies there. -/
def ofList (listed : List (String × Entry)) : Tree :=
  ⟨listed.map fun entry => (placeOf entry.1, entry.2)⟩

def find? (t : Tree) (place : List String) : Option Entry :=
  match t.entries.reverse.find? fun entry => entry.1 == place with
  | some entry => some entry.2
  | none =>
      if place.isEmpty || t.entries.any fun entry => place.isPrefixOf entry.1 then
        some .directory
      else none

/-! ## Following a path -/

/-- Outside of the tree only directories on the way to the root are known, without their names. -/
inductive Place
  | inside (names : List String)
  | outside
  deriving DecidableEq, Repr

/-- Longer names are refused unseen. -/
def maxNameBytes : Nat := 255

/-- Paths of so many bytes are refused as a whole. -/
def maxPathBytes : Nat := 4096

def enterDirectory (t : Tree) (place : Place) (component : String) : Except Failure Place :=
  if isIdle component then .ok place
  else if component = ".." then
    match place with
    | .inside [] => .ok .outside
    | .inside (name :: names) => .ok (.inside (name :: names).dropLast)
    | .outside => .ok .outside
  else if maxNameBytes < component.utf8ByteSize then .error .nameTooLong
  else
    match place with
    | .outside => .error .notFound
    | .inside names =>
        if (t.find? (names ++ [component])).isSome then .ok (.inside (names ++ [component]))
        else .error .notFound

/-- Nothing leads on from a file, not even to itself. -/
def enter (t : Tree) (place : Place) (component : String) : Except Failure Place :=
  match place with
  | .outside => t.enterDirectory place component
  | .inside names =>
      match t.find? names with
      | some .directory => t.enterDirectory place component
      | some (.file ..) => .error .notDirectory
      | none => .error .notFound

def walk (t : Tree) (path : String) : Except Failure Place :=
  (components path).foldlM t.enter (if path.toList.head? = some '/' then .outside else .inside [])

/-! ## Reading -/

def read (t : Tree) : Disk := fun path =>
  if path.toList.contains '\x00' then .error .nulInPath
  else if path.isEmpty then .error .notFound
  else if maxPathBytes ≤ path.utf8ByteSize then .error .nameTooLong
  else
    match t.walk path with
    | .error cause => .error cause
    | .ok .outside => .error .isDirectory
    | .ok (.inside names) =>
        match t.find? names with
        | some entry => entry.content
        | none => .error .notFound

end Tree

end File
end Rill
