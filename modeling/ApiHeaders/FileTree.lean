import ApiHeaders.Sink
import ApiHeaders.Source

/-!
# File trees

A tree of files and directories with a current directory. Paths are followed piece by piece, and
each piece but the last has to lead to a directory.

## Main definitions

* `FileTree` is a tree, held as what stands at each of its places.
* `FileTree.follow` finds the place that a path leads to.
* `FileTree.read` and `FileTree.write` read and write a file.
* `FileTree.makeAll` makes a directory together with those it is in.
* `FileTree.source` and `FileTree.sink` are a tree as a source and as a sink.
-/

namespace ApiHeaders

/-- What stands at a place of a tree. -/
inductive FileTree.Item where
  | file (text : String)
  | directory
  deriving DecidableEq, Repr

/-- A tree of files. A place is the list of names that lead to it from the root. -/
structure FileTree where
  items : Table (List String) FileTree.Item := ∅
  /-- The directory where relative paths begin. -/
  current : List String := []

namespace FileTree

/-- What stands at a place. The root is a directory. -/
def at? (t : FileTree) (place : List String) : Option Item :=
  if place = [] then some .directory else t.items.get? place

/-- The place one piece of a path further. The root is its own parent. -/
def step (place : List String) (piece : List Char) : List String :=
  if Path.isIdle piece then place
  else if piece = ['.', '.'] then place.dropLast
  else place ++ [String.ofList piece]

/-- Checks that a place is a directory. -/
def enter (t : FileTree) (place : List String) : Except FileFault Unit :=
  match t.at? place with
  | none => .error .notFound
  | some (.file _) => .error .notDirectory
  | some .directory => .ok ()

/-- The place that the pieces of a path lead to. Nothing need stand there. -/
def follow (t : FileTree) (place : List String) : List (List Char) → Except FileFault (List String)
  | [] => .ok place
  | piece :: pieces => do
    t.enter place
    t.follow (step place piece) pieces

/-- Where a path begins. -/
def start (t : FileTree) (p : Path) : List String := if p.isAbsolute then [] else t.current

/-- The pieces between the slashes of a path. The empty path leads nowhere. -/
def pieces (p : Path) : Except FileFault (List (List Char)) :=
  if p.text.isEmpty then .error .notFound else .ok (Text.splitOn '/' p.text.toList)

/-- The place that a path leads to. -/
def find (t : FileTree) (p : Path) : Except FileFault (List String) := do
  t.follow (t.start p) (← pieces p)

def isDirectory (t : FileTree) (p : Path) : Bool :=
  match t.find p with
  | .ok place => t.at? place = some .directory
  | .error _ => false

/-- The text of a file. -/
def read (t : FileTree) (p : Path) : Except FileFault String := do
  match t.at? (← t.find p) with
  | some (.file text) => return text
  | some .directory => throw .isDirectory
  | none => throw .notFound

/-- The last step of a path that is to be created. -/
structure Last where
  /-- The directory that it is in. -/
  directory : List String
  /-- Its name, or none if it is no name. -/
  name : Option String
  /-- Whether slashes follow it. -/
  slashed : Bool

/-- The last step of a path, whose directory has to be there. -/
def last (t : FileTree) (p : Path) : Except FileFault Last := do
  let all ← pieces p
  let unslashed := (all.reverse.dropWhile (·.isEmpty)).reverse
  let directory ← t.follow (t.start p) unslashed.dropLast
  t.enter directory
  let name := unslashed.getLast?.filter fun piece => !Path.isIdle piece && piece ≠ ['.', '.']
  return { directory, name := name.map String.ofList, slashed := unslashed.length < all.length }

def put (t : FileTree) (place : List String) (i : Item) : FileTree :=
  { t with items := t.items.insert place i }

/-- Writes a file into a directory that is there. -/
def write (t : FileTree) (p : Path) (text : String) : Except FileFault FileTree := do
  let l ← t.last p
  match l.name with
  | none => throw .isDirectory
  | some name =>
    let place := l.directory ++ [name]
    if l.slashed || t.at? place = some .directory then throw .isDirectory
    else return t.put place (.file text)

/-- Makes a directory in one that is there. -/
def make (t : FileTree) (p : Path) : Except FileFault FileTree := do
  let l ← t.last p
  match l.name with
  | none => throw .alreadyExists
  | some name =>
    let place := l.directory ++ [name]
    if (t.at? place).isSome then throw .alreadyExists else return t.put place .directory

/-- Makes a directory and at most `depth` of those it is in. A directory that is there already will
do. -/
def makeUpTo (t : FileTree) (p : Path) (depth : Nat) : Except FileFault FileTree :=
  let unlessThere (t : FileTree) (fault : FileFault) : Except FileFault FileTree :=
    if t.isDirectory p then .ok t else .error fault
  match t.make p, depth, p.parent? with
  | .ok t, _, _ => .ok t
  | .error .notFound, depth + 1, some parent => do
    let t ← if parent.text.isEmpty then pure t else t.makeUpTo parent depth
    match t.make p with
    | .ok t => return t
    | .error fault => unlessThere t fault
  | .error fault, _, _ => unlessThere t fault

/-- Makes a directory together with those it is in. -/
def makeAll (t : FileTree) (p : Path) : Except FileFault FileTree :=
  t.makeUpTo p p.components.length

/-- The texts of the files of a tree. -/
def source (t : FileTree) : Source := t.read

/-- A tree that takes files and makes the directories they need. -/
def sink : Sink FileTree where
  write t path text :=
    let made : Except Error FileTree :=
      match path.directory? with
      | some d => (t.makeAll d).mapError (.file d)
      | none => .ok t
    match made with
    | .error e => (.error e, t)
    | .ok t =>
      match t.write path text with
      | .error fault => (.error (.file path fault), t)
      | .ok t => (.ok (), t)

/-- The files below the current directory, with their paths from there. -/
def files (t : FileTree) : List NamedFile :=
  t.items.entries.filterMap fun (place, i) =>
    match i with
    | .file text =>
      if t.current.isPrefixOf place then
        some ⟨⟨"/".intercalate (place.drop t.current.length)⟩, text⟩
      else none
    | .directory => none

end FileTree

end ApiHeaders
