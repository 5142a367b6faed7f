import Cryptogram.Failure
import Cryptogram.Text.Utf8

/-!
# Where keyrings are kept

Keyrings are kept under names, either in memory or in files.  The name of a file is a path: empty
and single-dot parts of it do not count.
-/

namespace Cryptogram.Keyring

/-- Keyrings in memory, by location. -/
structure Shelf where
  rings : List (String × Bytes) := []
  deriving DecidableEq, Repr

namespace Shelf

/-- The shelf with a keyring at a location, which takes the place of one that is there. -/
def add (location : String) (data : Bytes) (s : Shelf) : Shelf :=
  ⟨(location, data) :: s.rings.filter fun e => e.1 ≠ location⟩

/-- The keyring at a location. -/
def find? (s : Shelf) (location : String) : Option Bytes :=
  (s.rings.find? fun e => e.1 = location).map Prod.snd

def read (s : Shelf) (location : String) : Except Failure Bytes :=
  match s.find? location with
  | some data => .ok data
  | none => .error (.keyringMissing location)

end Shelf

/-! ## Files -/

/-- The name of a file, relative to a directory or to the root. -/
structure FilePath where
  /-- The number of slashes in front. -/
  root : Nat
  parts : List String
  deriving DecidableEq, Repr

namespace FilePath

/-- The path that a text denotes.  Two slashes in front are kept apart from one, more are one. -/
def ofText (text : String) : FilePath :=
  let slashes := (text.toList.takeWhile (· = '/')).length
  let root := if slashes = 2 then 2 else min slashes 1
  ⟨root, (text.splitOn "/").filter fun part => part ≠ "" && part ≠ "."⟩

def text (p : FilePath) : String :=
  if p.root = 0 ∧ p.parts = [] then "."
  else String.ofList (List.replicate p.root '/') ++ "/".intercalate p.parts

end FilePath

/-- Files in a directory, by their paths. -/
structure FileTree where
  files : List (List String × Bytes) := []
  deriving DecidableEq, Repr

namespace FileTree

/-- The directory with these files. -/
def ofList (files : List (String × Bytes)) : FileTree :=
  ⟨files.map fun (name, data) => ((FilePath.ofText name).parts, data)⟩

/-- The file with a path. -/
def find? (t : FileTree) (parts : List String) : Option Bytes :=
  (t.files.find? fun e => e.1 = parts).map Prod.snd

/-- Whether a path is that of a directory. -/
def isDirectory (t : FileTree) (parts : List String) : Bool :=
  parts = [] || t.files.any fun e => parts.isPrefixOf e.1 && e.1 ≠ parts

/-- Where a path leads that is followed from a directory, if there is a way. -/
inductive Place
  | missing
  /-- A way that leads through a file or through a name that is too long. -/
  | barred
  | directory
  | file (data : Bytes)
  deriving DecidableEq, Repr

/-- The greatest number of octets of a name. -/
def maxName : Nat := 255

/-- Follows the rest of a path from a place that the parts so far (last first) lead to. -/
def follow (t : FileTree) : (soFar : List String) → (rest : List String) → Place
  | soFar, [] =>
    match t.find? soFar.reverse with
    | some data => .file data
    | none => if t.isDirectory soFar.reverse then .directory else .missing
  | soFar, part :: rest =>
    if (t.find? soFar.reverse).isSome then .barred
    else if !t.isDirectory soFar.reverse then .missing
    else if maxName < (Text.utf8 part).length then .barred
    else if part = ".." then
      if soFar = [] then .missing else t.follow soFar.tail rest
    else t.follow (part :: soFar) rest

/-- Reads the file that a text names. -/
def read (t : FileTree) (location : String) : Except Failure Bytes :=
  let path := FilePath.ofText location
  let place :=
    if path.root = 0 then t.follow [] path.parts
    else if path.parts = [] then .directory
    else .missing
  if location.contains '\x00' then .error .locationUnusable
  else match place with
  | .file data => .ok data
  | .missing => .error (.keyringMissing path.text)
  | .barred => .error (.keyringUnreadable path.text)
  | .directory => .error (.keyringUnreadable path.text)

end FileTree

end Cryptogram.Keyring
