import ApiHeaders.Text.Pieces

/-!
# Paths

A path keeps the text it was written as; that is what is printed and handed on. Two paths name the
same place when their components agree, so `a//b`, `a/./b` and `a/b` are one place, while `./a`
and `a` are two and `..` is never resolved.

## Main definitions

* `Path` and its `components`.
* `Path.parent?`, `Path.fileName?`, `Path.stem?` and `Path.extension?` take a path apart. Empty
  pieces and single dots at the end of a path do not count.
* `Path.join` puts a path below another.
-/

namespace ApiHeaders

/-- A step of a path. -/
inductive Component where
  /-- The root directory. -/
  | root
  /-- The directory where the path starts, written as a leading dot. -/
  | here
  /-- The parent directory. -/
  | up
  | named (name : String)
  deriving DecidableEq, Repr, Inhabited

/-- The step that a piece of a path stands for. -/
def Component.ofPiece (piece : List Char) : Component :=
  if piece = ['.', '.'] then .up else .named (.ofList piece)

/-- A path as it was written. -/
structure Path where
  text : String
  deriving DecidableEq, Repr, Inhabited

namespace Path

/-- The start of a path that is not a step below something else: `/`, a leading `.`, or nothing. -/
inductive Anchor where
  | root
  | here
  | none
  deriving DecidableEq, Repr

namespace Anchor

def text : Anchor → String
  | root => "/"
  | here => "."
  | none => ""

def components : Anchor → List Component
  | root => [.root]
  | here => [.here]
  | none => []

end Anchor

/-- Whether a piece between slashes is no step of the path. -/
def isIdle (piece : List Char) : Bool := piece = [] || piece = ['.']

/-- Splits the anchor of a path off the pieces between its slashes. -/
def decompose (p : Path) : Anchor × List (List Char) :=
  match p.text.toList with
  | '/' :: cs => (.root, Text.splitOn '/' cs)
  | ['.'] => (.here, [])
  | '.' :: '/' :: cs => (.here, [] :: Text.splitOn '/' cs)
  | cs => (.none, Text.splitOn '/' cs)

/-- The steps of a path. -/
def components (p : Path) : List Component :=
  let (anchor, pieces) := p.decompose
  anchor.components ++ (pieces.filter (!isIdle ·)).map .ofPiece

/-- Whether two paths name the same place. -/
def same (p q : Path) : Bool := p.components = q.components

def isAbsolute (p : Path) : Bool := p.text.toList.head? = some '/'

/-- Drops the idle pieces at the end. -/
def dropIdleEnd (pieces : List (List Char)) : List (List Char) :=
  (pieces.reverse.dropWhile isIdle).reverse

/-- The text of pieces that follow an anchor. -/
def recompose (anchor : Anchor) (pieces : List (List Char)) : Path :=
  ⟨anchor.text ++ .ofList (['/'].intercalate pieces)⟩

/-- The path without its last step. The root and the empty path have no parent. -/
def parent? (p : Path) : Option Path :=
  let (anchor, pieces) := p.decompose
  match dropIdleEnd pieces with
  | [] => if anchor = .here then some ⟨""⟩ else none
  | steps => some (recompose anchor (dropIdleEnd steps.dropLast))

/-- The parent of the path, unless that is written as an empty text. -/
def directory? (p : Path) : Option Path := p.parent?.filter fun d => !d.text.isEmpty

/-- The last step of the path, if it is a name. -/
def fileName? (p : Path) : Option String :=
  match p.components.getLast? with
  | some (.named name) => some name
  | _ => none

/-- The file name, or an empty text. -/
def fileName (p : Path) : String := p.fileName?.getD ""

/-- A file name cut at its last dot. A dot that starts the name does not count. -/
def cutExtension (name : String) : String × Option String :=
  match Text.breakAtLast? '.' name.toList with
  | none | some ([], _) => (name, none)
  | some (stem, extension) => (.ofList stem, some (.ofList extension))

/-- The file name without its extension. -/
def stem? (p : Path) : Option String := p.fileName?.map fun name => (cutExtension name).1

/-- The stem of the file name, or an empty text. -/
def stem (p : Path) : String := p.stem?.getD ""

/-- What follows the last dot of the file name. -/
def extension? (p : Path) : Option String := p.fileName?.bind fun name => (cutExtension name).2

/-- The path `q` below `p`. An absolute `q` stands for itself. -/
def join (p q : Path) : Path :=
  if q.isAbsolute then q
  else if p.text.toList.getLast?.all (· = '/') then ⟨p.text ++ q.text⟩
  else ⟨p.text ++ "/" ++ q.text⟩

end Path

end ApiHeaders
