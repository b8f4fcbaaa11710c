import ApiHeaders.Text.Digit
import ApiHeaders.Yaml.Cursor

/-!
# Tags

A tag says what a node is. It is written in full between `!<` and `>`, or as a handle and a suffix,
where the handle is `!`, `!!` or `!name!` and stands for some text. Octets may be escaped by `%`.

## Main definitions

* `Tag` is a tag, as the octets of its text.
* `Tag.readOctets` reads octets, escaped or not.
* `Tag.Written` is a tag as it stands in a text, and `Tag.Written.read` reads it.
* `Tag.Written.resolve?` puts the text that a handle stands for in its place.
-/

namespace ApiHeaders.Yaml

/-- A tag, as the octets of its text. -/
structure Tag where
  octets : List UInt8
  deriving DecidableEq, Repr

namespace Tag

def ofString (s : String) : Tag := ⟨s.toUTF8.toList⟩

/-- What the tags of the basic types begin with. -/
def basic : String := "tag:yaml.org,2002:"

def null : Tag := ofString (basic ++ "null")

def boolean : Tag := ofString (basic ++ "bool")

def integer : Tag := ofString (basic ++ "int")

def float : Tag := ofString (basic ++ "float")

/-- The tag that says no more than that there is one. -/
def bare : Tag := ofString "!"

/-- Whether a tag is one of the document's own. -/
def isLocal (t : Tag) : Bool := t.octets.head? = some '!'.toUInt8

/-- Whether a tag names a variant: it is local and a well-formed text. -/
def isVariant (t : Tag) : Bool := t.isLocal && (String.fromUTF8? t.octets.toByteArray).isSome

/-! ## Reading -/

/-- Whether a character may stand in a tag for itself. Some may do so only in a tag that is written
in full. -/
def isTagChar (full : Bool) (c : Char) : Bool :=
  isNameChar c || c ∈ ";/?:@&=+$.!~*'()".toList || (full && (c = ',' || c = '[' || c = ']'))

/-- How many octets of a character follow its first one. -/
def followers? (octet : Nat) : Option Nat :=
  if octet < 0x80 then some 0
  else if octet < 0xC0 then none
  else if octet < 0xE0 then some 1
  else if octet < 0xF0 then some 2
  else if octet < 0xF8 then some 3
  else none

/-- Reads octets as far as they go. `pending` is how many escaped ones have to follow for the
character to be complete. -/
def readOctets (full : Bool) (pending : Nat) : List Char → Option (List UInt8 × List Char)
  | [] => if pending = 0 then some ([], []) else none
  | '%' :: a :: b :: cs => do
    let octet := 16 * (← Text.digit? 16 a) + (← Text.digit? 16 b)
    let pending ←
      if pending = 0 then followers? octet
      else if 0x80 ≤ octet && octet < 0xC0 then some (pending - 1)
      else none
    let (octets, rest) ← readOctets full pending cs
    return (octet.toUInt8 :: octets, rest)
  | c :: cs =>
    if pending ≠ 0 || c = '%' then none
    else if isTagChar full c then do
      let (octets, rest) ← readOctets full 0 cs
      return (c.toUInt8 :: octets, rest)
    else some ([], c :: cs)

/-- Reads at least one octet. What follows an octet of zero does not count. -/
def readSome (full : Bool) (cs : List Char) : Option (List UInt8 × List Char) := do
  let (octets, rest) ← readOctets full 0 cs
  if octets.isEmpty then none else return (octets.takeWhile (· ≠ 0), rest)

/-- A tag as it is written. One that is written in full has no handle. -/
structure Written where
  handle : String
  suffix : List UInt8
  deriving DecidableEq, Repr

namespace Written

/-- Reads what follows the `!` of a tag. -/
def read : List Char → Option (Written × List Char)
  | '<' :: cs => do
    let (octets, rest) ← readSome true cs
    match rest with
    | '>' :: rest => return (⟨"", octets⟩, rest)
    | _ => none
  | cs =>
    let word := cs.takeWhile isNameChar
    match cs.dropWhile isNameChar with
    | '!' :: cs => do
      let (octets, rest) ← readSome false cs
      return (⟨.ofList ('!' :: word ++ ['!']), octets⟩, rest)
    | _ => do
      let (octets, rest) ← readOctets false 0 cs
      let suffix := octets.takeWhile (· ≠ 0)
      return (if suffix.isEmpty then ⟨"", bare.octets⟩ else ⟨"!", suffix⟩, rest)

/-- The tag, where `handles` are the known handles and what they stand for. -/
def resolve? (handles : List (String × List UInt8)) (w : Written) : Option Tag :=
  if w.handle.isEmpty then some ⟨w.suffix⟩
  else (handles.lookup w.handle).map fun start => ⟨start ++ w.suffix⟩

end Written

end Tag

end ApiHeaders.Yaml
