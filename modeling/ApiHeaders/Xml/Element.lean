import ApiHeaders.Xml.Attribute

/-!
# Element trees

Code text in a registry is spread over mixed content, so an element keeps the text before its first
child and the text after its own end tag.

## Main definitions

* `Element` is an element with its children.
* `Element.attribute?`, `Element.child?`, `Element.childrenNamed`, `Element.descendants` and
  `Element.childrenOf` look parts of a tree up.
* `Element.innerText` is the text of an element, some of its descendants left out.
-/

namespace ApiHeaders.Xml

/-- An element of a document. -/
structure Element where
  tag : String
  attributes : List Attribute := []
  /-- The text before the first child. -/
  text : String := ""
  /-- The text after the element's end, up to its next sibling. -/
  tail : String := ""
  children : List Element := []
  deriving Repr, Inhabited

namespace Element

/-- The value of an attribute. -/
def attribute? (e : Element) (key : String) : Option String :=
  (e.attributes.find? (·.key = key)).map (·.value)

/-- The first child with a tag. -/
def child? (e : Element) (tag : String) : Option Element := e.children.find? (·.tag = tag)

/-- The children with a tag. -/
def childrenNamed (e : Element) (tag : String) : List Element :=
  e.children.filter (·.tag = tag)

mutual

/-- The elements below an element that have a tag, in document order. -/
def descendants (tag : String) : Element → List Element
  | ⟨_, _, _, _, children⟩ => descendantsIn tag children

/-- The elements with a tag in a list of trees. -/
def descendantsIn (tag : String) : List Element → List Element
  | [] => []
  | e :: es => (if e.tag = tag then [e] else []) ++ descendants tag e ++ descendantsIn tag es

end

/-- The children with a tag of all elements below `e` that are called `parent`. -/
def childrenOf (e : Element) (parent child : String) : List Element :=
  (e.descendants parent).flatMap (·.childrenNamed child)

mutual

/-- The text of an element and of the children that `keep` accepts, each with its tail. A child
that is left out takes its tail along. -/
def innerText (keep : Element → Bool) : Element → String
  | ⟨_, _, text, _, children⟩ => text ++ innerTexts keep children

/-- The text of the children that `keep` accepts. -/
def innerTexts (keep : Element → Bool) : List Element → String
  | [] => ""
  | e :: es => (if keep e then innerText keep e ++ e.tail else "") ++ innerTexts keep es

end

/-- The whole text of an element. -/
def allText (e : Element) : String := e.innerText fun _ => true

/-- Adds a child after the others. -/
def addChild (e child : Element) : Element := { e with children := e.children ++ [child] }

/-- Adds text inside an element: to the tail of its last child, or, without children, to its own
text. -/
def addText (e : Element) (s : String) : Element :=
  match e.children.getLast? with
  | none => { e with text := e.text ++ s }
  | some last =>
    { e with children := e.children.dropLast ++ [{ last with tail := last.tail ++ s }] }

end Element

end ApiHeaders.Xml
