import ApiHeaders.Yaml.Tag

/-!
# Directives

The lines in front of a document that begin with `%` say which version of the format it is written
in, and what the handles of its tags stand for.

## Main definitions

* `Directive` is such a line, and `Directive.read` reads it.
* `Directive.handles?` are the handles of a document with given directives.
-/

namespace ApiHeaders.Yaml

inductive Directive where
  | version (major minor : Nat)
  /-- What a handle stands for. -/
  | handle (name : String) (text : List UInt8)
  deriving DecidableEq, Repr

namespace Directive

/-- Reads a number of at most nine digits. -/
def readNumber (cs : List Char) : Option (Nat × List Char) :=
  let digits := cs.takeWhile Char.isDigit
  if digits.isEmpty || 9 < digits.length then none
  else
    some (digits.foldl (fun n c => 10 * n + (c.toNat - '0'.toNat)) 0, cs.dropWhile Char.isDigit)

def readVersion (cs : List Char) : Option (Directive × List Char) := do
  let (major, cs) ← readNumber cs
  match cs with
  | '.' :: cs =>
    let (minor, cs) ← readNumber cs
    return (version major minor, cs)
  | _ => none

/-- Reads a handle. One without a `!` at its end must be the bare `!`. -/
def readName : List Char → Option (String × List Char)
  | '!' :: cs =>
    let word := cs.takeWhile isNameChar
    match cs.dropWhile isNameChar with
    | '!' :: cs => some (.ofList ('!' :: word ++ ['!']), cs)
    | cs => if word.isEmpty then some ("!", cs) else none
  | _ => none

def readHandle (cs : List Char) : Option (Directive × List Char) := do
  let (name, cs) ← readName cs
  if cs.head?.any isBlank then
    let (text, cs) ← Tag.readSome true (cs.dropWhile isBlank)
    if endsWord cs then return (handle name text, cs) else none
  else none

/-- Reads what follows the `%` of a directive. -/
def read (cs : List Char) : Option (Directive × List Char) :=
  let rest := cs.dropWhile isNameChar
  if endsWord rest then
    let rest := rest.dropWhile isBlank
    match String.ofList (cs.takeWhile isNameChar) with
    | "YAML" => readVersion rest
    | "TAG" => readHandle rest
    | _ => none
  else none

/-! ## Directives of a document -/

def version? : Directive → Option (Nat × Nat)
  | version major minor => some (major, minor)
  | handle _ _ => none

def handle? : Directive → Option (String × List UInt8)
  | version _ _ => none
  | handle name text => some (name, text)

/-- The handles that need no directive. -/
def standardHandles : List (String × List UInt8) :=
  [("!", Tag.bare.octets), ("!!", (Tag.ofString Tag.basic).octets)]

/-- The handles of a document. The version must be 1.1 or 1.2, and nothing may be said twice. -/
def handles? (directives : List Directive) : Option (List (String × List UInt8)) :=
  let versions := directives.filterMap version?
  let handles := directives.filterMap handle?
  if versions ∈ [[], [(1, 1)], [(1, 2)]] ∧ (handles.map (·.1)).Nodup then
    some (handles ++ standardHandles)
  else none

end Directive

end ApiHeaders.Yaml
