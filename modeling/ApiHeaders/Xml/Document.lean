import ApiHeaders.Xml.Element

/-!
# Documents

A document is read in two steps: its pieces become events, and the events build a tree. Problems
come in the order of the document; that an element is still open, or that there was none, shows
only at the end.

## Main definitions

* `Event` is a start or an end of an element, or character data.
* `Event.ofPieces` resolves references, reads attributes and matches end tags.
* `Builder` holds the elements that are still open and the first finished one outside them.
* `Element.parse` reads a document and gives its root.
-/

namespace ApiHeaders.Xml

/-- Why a document cannot be read. -/
inductive Error where
  | markup (position : Nat) (fault : MarkupFault)
  | startTag (error : AttributeError)
  | text (fault : ReferenceFault)
  /-- The end of the document comes before the end of an element. -/
  | unclosed (tag : String)
  | noRoot
  deriving DecidableEq, Repr

def Error.message : Error → String
  | markup position fault =>
    "XML parse error at position " ++ toString position ++ ": " ++ fault.message
  | startTag (.form fault) => "Attribute error: " ++ fault.message
  | startTag (.value fault) => "Attribute value error: " ++ fault.message
  | text fault => "Text error: " ++ fault.message
  | unclosed tag => "Unclosed element <" ++ tag ++ ">"
  | noRoot => "Document has no root element"

/-- What happens in a document, in order. -/
inductive Event where
  | start (tag : String) (attributes : List Attribute)
  | text (s : String)
  /-- The end of the innermost open element. -/
  | stop
  deriving DecidableEq, Repr

/-- Whether an end tag may stand here, where `names` are the open elements, innermost first. -/
def checkEnd (names : List String) (found : String) : Except MarkupFault (List String) :=
  match names with
  | [] => .error (.unmatched found)
  | expected :: outer => if found = expected then .ok outer else .error (.mismatched expected found)

/-- The events of the pieces of a document. `names` are the open elements, innermost first. -/
def Event.ofPieces (names : List String) : List Piece → Except Error (List Event)
  | [] => .ok []
  | ⟨position, .error fault⟩ :: _ => .error (.markup position fault)
  | ⟨position, .ok markup⟩ :: pieces =>
    match markup with
    | .other => ofPieces names pieces
    | .text raw => do
      let s ← (resolve raw).mapError .text
      return .text (.ofList s) :: (← ofPieces names pieces)
    | .cdata raw => do
      return .text (.ofList raw) :: (← ofPieces names pieces)
    | .startTag content empty => do
      let (tag, attributes) ← (Attribute.readAll content).mapError .startTag
      if empty then
        return .start tag attributes :: .stop :: (← ofPieces names pieces)
      else
        return .start tag attributes :: (← ofPieces (tag :: names) pieces)
    | .endTag name => do
      let outer ← (checkEnd names name).mapError (.markup position)
      return .stop :: (← ofPieces outer pieces)

/-- A tree under construction. -/
structure Builder where
  /-- The open elements, innermost first. -/
  openElements : List Element := []
  /-- The first element that was finished outside all others. -/
  root : Option Element := none

namespace Builder

/-- Puts a finished element into the innermost open one. -/
def attach (b : Builder) (e : Element) : Builder :=
  match b.openElements with
  | [] => { b with root := b.root.or (some e) }
  | parent :: outer => { b with openElements := parent.addChild e :: outer }

/-- Follows one event. -/
def step (b : Builder) : Event → Builder
  | .start tag attributes => { b with openElements := { tag, attributes } :: b.openElements }
  | .text s =>
    match b.openElements with
    | [] => b
    | e :: outer => { b with openElements := e.addText s :: outer }
  | .stop =>
    match b.openElements with
    | [] => b
    | e :: outer => { b with openElements := outer }.attach e

/-- The root, once all events are followed. -/
def finish (b : Builder) : Except Error Element :=
  match b.openElements, b.root with
  | e :: _, _ => .error (.unclosed e.tag)
  | [], none => .error .noRoot
  | [], some root => .ok root

end Builder

namespace Element

/-- The tree of a sequence of events. -/
def ofEvents (events : List Event) : Except Error Element :=
  (events.foldl Builder.step {}).finish

/-- The text of a document without the byte order mark that may start it. -/
def dropMark : List Char → List Char
  | '\uFEFF' :: cs => cs
  | cs => cs

/-- The events of a document. -/
def events (document : String) : Except Error (List Event) :=
  Event.ofPieces [] (Piece.scan 0 (dropMark document.toList))

/-- Reads a document and gives its first root. -/
def parse (document : String) : Except Error Element := events document >>= ofEvents

end Element

end ApiHeaders.Xml
