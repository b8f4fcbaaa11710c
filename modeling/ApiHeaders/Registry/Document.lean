import ApiHeaders.Registry.Basic
import ApiHeaders.Text.Blank
import ApiHeaders.Text.Case
import ApiHeaders.Text.Pieces
import ApiHeaders.Xml.Document

/-!
# Reading a registry

A registry document declares types, commands, enumerants and sets. Reading does its best: an
element that lacks something it needs is skipped with a warning, and the rest counts.

## Main definitions

* `docOf?` is the documentation of an element.
* `memberItems`, `typeItems`, `commandItems`, `enumerantItems` and `setItems` list what a document
  contributes, each in document order.
* `Registry.ofElement` and `Registry.parse` read a whole document.
-/

namespace ApiHeaders.Registry

open Xml (Element)

/-- Whether an element is code text. Documentation never is. -/
def isCode (e : Element) : Bool := e.tag ≠ "comment" && e.tag ≠ "property"

/-- Whether an element is code text other than the name that the code is about. -/
def isCodeAroundName (e : Element) : Bool := isCode e && e.tag ≠ "name"

/-- The code text of an element. -/
def codeOf (e : Element) : String := Text.trimmed (e.innerText isCode)

/-- The code text of an element with its name cut out. -/
def codeAroundName (e : Element) : String := Text.trimmed (e.innerText isCodeAroundName)

/-- The text of an element that holds a name. -/
def nameText (e : Element) : String := Text.trimmed e.allText

/-- The documentation of an element: a headline from its `comment` attribute, then, after an empty
line, the lines of its `comment` child. -/
def docOf? (e : Element) : Option (List String) :=
  let body := (e.child? "comment").map fun c =>
    (Text.lines (Text.trimmed c.allText)).map Text.trimmed
  match e.attribute? "comment", body with
  | none, none => none
  | some headline, none => some [headline]
  | none, some body => some body
  | some headline, some body => some (headline :: "" :: body)

/-- The names in a list separated by commas. -/
def groupNames (e : Element) : List String :=
  ((Text.pieces ',' ((e.attribute? "group").getD "")).map Text.trimmed).filter (· ≠ "")

/-- The group memberships of an enumerant. -/
def memberItemsOf (e : Element) : List Item :=
  match e.attribute? "name" with
  | none => []
  | some name => (groupNames e).map (.member · name)

def memberItems (root : Element) : List Item :=
  (root.childrenOf "enums" "enum").flatMap memberItemsOf

/-- The name of a type: its `name` attribute, or else the text of its `name` child. -/
def typeName? (e : Element) : Option String :=
  (((e.attribute? "name").or ((e.child? "name").map (·.allText))).map Text.trimmed).filter (· ≠ "")

/-- The left side of a type definition: its code without the name and without a leading
`typedef`. -/
def leftSide (e : Element) : String :=
  let code := codeAroundName e
  match Text.stripStart? "typedef".toList code.toList with
  | some rest => Text.trimmed (.ofList rest)
  | none => code

def typeItem (e : Element) : Item :=
  match typeName? e with
  | none => .skipped .namelessType
  | some name =>
    .declaration <|
      match e.attribute? "category" with
      | some "include" => .header name
      | some "basetype" =>
        .typedef {
          type := leftSide e, name, repr := codeOf e, doc := docOf? e
          deprecated := e.attribute? "deprecated" }
      | category =>
        .verbatim {
          name, category, repr := codeOf e, doc := docOf? e
          deprecated := e.attribute? "deprecated" }

def typeItems (root : Element) : List Item := (root.childrenOf "types" "type").map typeItem

/-- A parameter, if it has a name. -/
def parameter? (e : Element) : Option Parameter :=
  (e.child? "name").map fun name =>
    { type := codeAroundName e, name := nameText name, repr := codeOf e }

/-- The namespace of commands that do not declare one. -/
def defaultScope : String := "AL"

def commandItem (scope : String) (e : Element) : Item :=
  match e.child? "proto" with
  | none => .skipped .commandWithoutPrototype
  | some proto =>
    match proto.child? "name" with
    | none => .skipped .commandWithoutName
    | some nameElement =>
      let name := nameText nameElement
      match (e.childrenNamed "param").mapM parameter? with
      | none => .skipped (.parameterWithoutName name)
      | some parameters =>
        .declaration <| .command {
          name, scope, parameters
          returnType := codeAroundName proto
          pointerName := (e.attribute? "funcpointer").getD ("LP" ++ Text.upper name)
          exportedOn := e.attribute? "export"
          noexcept := e.attribute? "except" = some "no"
          doc := docOf? e
          deprecated := e.attribute? "deprecated" }

/-- The commands below a `commands` element, all in its namespace. -/
def commandItemsOf (e : Element) : List Item :=
  (e.descendants "command").map (commandItem ((e.attribute? "namespace").getD defaultScope))

def commandItems (root : Element) : List Item :=
  (root.descendants "commands").flatMap commandItemsOf

def propertyOf (e : Element) : Property where
  owner := e.attribute? "on"
  type := e.attribute? "type"
  range := (e.attribute? "group").or (e.attribute? "range")
  default := e.attribute? "default"
  valueClass := e.attribute? "class"

def enumerantItem (e : Element) : Item :=
  match e.attribute? "name", e.attribute? "value" with
  | some name, some value =>
    .declaration <| .enumerant {
      name := Text.trimmed name
      value := Text.trimmed value
      property := (e.child? "property").map propertyOf
      groups := groupNames e
      doc := docOf? e
      deprecated := e.attribute? "deprecated" }
  | name, _ => .skipped (.incompleteEnumerant name)

def enumerantItems (root : Element) : List Item :=
  (root.childrenOf "enums" "enum").map enumerantItem

def requirementOf (e : Element) : Requirement where
  names := e.children.filterMap (·.attribute? "name")
  comment := e.attribute? "comment"
  api := e.attribute? "api"

/-- The API families that a set is for: a feature names one, an extension a list. -/
def familiesOf? (kind : SetKind) (e : Element) : Option (List String) :=
  match kind with
  | .feature => (e.attribute? "api").map ([·])
  | .extension => (e.attribute? "supported").map (Text.pieces '|')

def setItem (kind : SetKind) (e : Element) : Item :=
  match e.attribute? "name" with
  | none => .skipped (.namelessSet e.tag)
  | some name =>
    match familiesOf? kind e with
    | none => .skipped (.setWithoutApi name)
    | some apis =>
      .set {
        kind, name, apis
        requirements := (e.childrenNamed "require").map requirementOf
        annex := e.attribute? "annex"
        doc := docOf? e }

/-- The features of a document, then its extensions. -/
def setItems (root : Element) : List Item :=
  (root.descendants "feature").map (setItem .feature)
    ++ (root.childrenOf "extensions" "extension").map (setItem .extension)

/-- All that a document contributes. -/
def items (root : Element) : List Item :=
  memberItems root ++ typeItems root ++ commandItems root ++ enumerantItems root ++ setItems root

/-- The registry of a document, and what there was to say about it. -/
def ofElement (root : Element) : Registry × List Warning := ({} : Registry).takeAll (items root)

/-- Reads a registry from the text of a document. -/
def parse (document : String) : Except Xml.Error (Registry × List Warning) :=
  (Element.parse document).map ofElement

end ApiHeaders.Registry
