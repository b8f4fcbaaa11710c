import ApiHeaders.Yaml.Token

/-!
# Nodes

A document is a tree of scalars, sequences and mappings. A node may be given a name, and a reference
to the name stands for the node.

## Main definitions

* `Node` is a node of a document.
* `Document.ofText` reads the first document of a text.
* `Document.target?` is the node that a reference leads to.

## Names

A name gets a number when it is given: how many names there are at that point. A name that is given
anew gets a new number, so two names can come to have the same one. A reference leads to the last
node with the number of its name, and that may be a node that the reference is in.

## Faults

Where a text is not well-formed, `Node.broken` stands in the place of what cannot be read, and
nothing follows it in the tree. Whoever walks through the tree in order thus meets everything that
comes before the fault.
-/

namespace ApiHeaders.Yaml

/-- What is said of a node in front of it. -/
structure Properties where
  /-- The number of its name. -/
  number : Option Nat := none
  tag : Option Tag := none
  deriving DecidableEq, Repr, Inhabited

inductive Node where
  | reference (number : Nat)
  /-- A scalar in quotes or a block is a string; of another one the text decides what it is. -/
  | scalar (p : Properties) (quoted : Bool) (text : String)
  | sequence (p : Properties) (items : List Node)
  | mapping (p : Properties) (entries : List (Node × Node))
  | broken
  deriving Repr, Inhabited

namespace Node

/-- A node that is left out. -/
def omitted : Node := scalar {} false ""

mutual

/-- Whether a node can be read to its end. -/
def isWhole : Node → Bool
  | reference _ | scalar _ _ _ => true
  | sequence _ items => areWhole items
  | mapping _ entries => entriesAreWhole entries
  | broken => false

def areWhole : List Node → Bool
  | [] => true
  | n :: ns => isWhole n && areWhole ns

def entriesAreWhole : List (Node × Node) → Bool
  | [] => true
  | (k, n) :: rest => isWhole k && isWhole n && entriesAreWhole rest

end

mutual

/-- How many steps a walk through a node has. The end of a collection counts as well. -/
def steps : Node → Nat
  | reference _ | scalar _ _ _ => 1
  | sequence _ items => 1 + stepsIn items + if areWhole items then 1 else 0
  | mapping _ entries => 1 + stepsInEntries entries + if entriesAreWhole entries then 1 else 0
  | broken => 0

def stepsIn : List Node → Nat
  | [] => 0
  | n :: ns => steps n + stepsIn ns

def stepsInEntries : List (Node × Node) → Nat
  | [] => 0
  | (k, n) :: rest => steps k + steps n + stepsInEntries rest

end

mutual

/-- The nodes with a name, in the order in which they begin, by the numbers of their names. -/
def named : Node → List (Nat × Node)
  | scalar p quoted text => (p.number.map (·, scalar p quoted text)).toList
  | sequence p items => (p.number.map (·, sequence p items)).toList ++ namedIn items
  | mapping p entries => (p.number.map (·, mapping p entries)).toList ++ namedInEntries entries
  | reference _ | broken => []

def namedIn : List Node → List (Nat × Node)
  | [] => []
  | n :: ns => named n ++ namedIn ns

def namedInEntries : List (Node × Node) → List (Nat × Node)
  | [] => []
  | (k, n) :: rest => named k ++ named n ++ namedInEntries rest

end

end Node

/-- The tokens to come, and what is known from those before. The tokens of a well-formed text end
with `streamEnd`, so none are left only after a fault. -/
structure Feed where
  tokens : List Token
  /-- What the handles of tags stand for. -/
  handles : List (String × List UInt8) := []
  /-- The names given so far, with their numbers. -/
  names : List (String × Nat) := []

namespace Feed

/-- A fault, after which nothing is read. -/
def fail (f : Feed) : Node × Feed := (.broken, { f with tokens := [] })

/-- Gives a node a name. -/
def define (f : Feed) (name : Option String) : Option Nat × Feed :=
  match name with
  | none => (none, f)
  | some a =>
    let number := f.names.length
    (some number, { f with names := (a, number) :: f.names.filter (·.1 ≠ a) })

/-- A name and a tag, in either order, and what follows them. -/
def splitProperties : List Token → Option String × Option Tag.Written × List Token
  | .anchor a :: .tag w :: ts | .tag w :: .anchor a :: ts => (some a, some w, ts)
  | .anchor a :: ts => (some a, none, ts)
  | .tag w :: ts => (none, some w, ts)
  | ts => (none, none, ts)

/-- Reads the properties of a node. None if the handle of its tag is unknown. -/
def properties (f : Feed) : Option (Properties × Feed) :=
  let (name, written, tokens) := splitProperties f.tokens
  let (number, f) := { f with tokens }.define name
  match written with
  | none => some ({ number }, f)
  | some w => (w.resolve? f.handles).map fun tag => ({ number, tag := some tag }, f)

/-- What ends an item of a sequence by indentation, or by mere dashes within a mapping. -/
def endsBlockItem (t : Token) : Bool := t = .blockEntry || t = .blockEnd

def endsInnerItem (t : Token) : Bool := endsBlockItem t || t = .key || t = .value

/-- What ends a key or a value of a mapping by indentation. -/
def endsBlockValue (t : Token) : Bool := t = .key || t = .value || t = .blockEnd

/-- What ends a value in brackets that `close` closes. -/
def endsFlowValue (close t : Token) : Bool := t = .flowEntry || t = close

def endsFlowKey (close t : Token) : Bool := t = .value || endsFlowValue close t

/-! ## Reading nodes

`depth` bounds the recursion: each call but the first of a node passes a token. -/

mutual

/-- Reads a node. `block` admits collections by indentation, and `dashes` also a sequence that is
indented no more deeply than the mapping it is in. -/
def node (depth : Nat) (block dashes : Bool) (f : Feed) : Node × Feed :=
  match depth with
  | 0 => f.fail
  | depth + 1 =>
    match f.tokens with
    | .reference name :: ts =>
      match f.names.lookup name with
      | some number => (.reference number, { f with tokens := ts })
      | none => f.fail
    | _ =>
      match f.properties with
      | some (p, f) => content depth block dashes p f
      | none => f.fail

/-- Reads a node without its properties. Only a node with some may be left out. For a scalar the
bare tag is as good as none. -/
def content (depth : Nat) (block dashes : Bool) (p : Properties) (f : Feed) : Node × Feed :=
  match depth with
  | 0 => f.fail
  | depth + 1 =>
    let scalar (quoted : Bool) (text : String) (ts : List Token) : Node × Feed :=
      (.scalar { p with tag := p.tag.filter (· ≠ Tag.bare) } quoted text, { f with tokens := ts })
    match f.tokens with
    | [] => f.fail
    | .plain text :: ts => scalar false text ts
    | .string text :: ts => scalar true text ts
    | .flowSequenceStart :: ts =>
      let (xs, f) := flowItems depth { f with tokens := ts }
      (.sequence p xs, f)
    | .flowMappingStart :: ts =>
      let (xs, f) := flowEntries depth { f with tokens := ts }
      (.mapping p xs, f)
    | t :: ts =>
      if dashes && t = .blockEntry then
        let (xs, f) := innerItems depth f
        (.sequence p xs, f)
      else if block && t = .blockSequenceStart then
        let (xs, f) := blockItems depth { f with tokens := ts }
        (.sequence p xs, f)
      else if block && t = .blockMappingStart then
        let (xs, f) := blockEntries depth { f with tokens := ts }
        (.mapping p xs, f)
      else if p ≠ {} then (.scalar p false "", f)
      else f.fail

/-- Reads a node that may be left out in front of the tokens that satisfy `ends`. -/
def nodeUnless (depth : Nat) (ends : Token → Bool) (block dashes : Bool) (f : Feed) :
    Node × Feed :=
  match depth with
  | 0 => f.fail
  | depth + 1 => if f.tokens.head?.any ends then (.omitted, f) else node depth block dashes f

/-- Reads the items of a sequence by indentation. -/
def blockItems (depth : Nat) (f : Feed) : List Node × Feed :=
  match depth with
  | 0 => ([.broken], f.fail.2)
  | depth + 1 =>
    match f.tokens with
    | .blockEntry :: ts =>
      let (x, f) := nodeUnless depth endsBlockItem true false { f with tokens := ts }
      let (xs, f) := blockItems depth f
      (x :: xs, f)
    | .blockEnd :: ts => ([], { f with tokens := ts })
    | _ => ([.broken], f.fail.2)

/-- Reads the items of a sequence that is indented no more deeply than the mapping it is in. -/
def innerItems (depth : Nat) (f : Feed) : List Node × Feed :=
  match depth with
  | 0 => ([.broken], f.fail.2)
  | depth + 1 =>
    match f.tokens with
    | [] => ([.broken], f)
    | .blockEntry :: ts =>
      let (x, f) := nodeUnless depth endsInnerItem true false { f with tokens := ts }
      let (xs, f) := innerItems depth f
      (x :: xs, f)
    | _ => ([], f)

/-- Reads the entries of a mapping by indentation. -/
def blockEntries (depth : Nat) (f : Feed) : List (Node × Node) × Feed :=
  match depth with
  | 0 => ([(.broken, .broken)], f.fail.2)
  | depth + 1 =>
    match f.tokens with
    | .key :: ts =>
      let (k, f) := nodeUnless depth endsBlockValue true true { f with tokens := ts }
      let (v, f) := value depth endsBlockValue true f
      let (xs, f) := blockEntries depth f
      ((k, v) :: xs, f)
    | .blockEnd :: ts => ([], { f with tokens := ts })
    | _ => ([(.broken, .broken)], f.fail.2)

/-- Reads the value of a key, which may be left out together with its `:`. -/
def value (depth : Nat) (ends : Token → Bool) (block : Bool) (f : Feed) : Node × Feed :=
  match depth with
  | 0 => f.fail
  | depth + 1 =>
    match f.tokens with
    | [] => f.fail
    | .value :: ts => nodeUnless depth ends block block { f with tokens := ts }
    | _ => (.omitted, f)

/-- Reads the items of a sequence in brackets. An item with a `:` or `?` is a mapping with that one
entry, whose end shows at the token after it. -/
def flowItems (depth : Nat) (f : Feed) : List Node × Feed :=
  match depth with
  | 0 => ([.broken], f.fail.2)
  | depth + 1 =>
    match f.tokens with
    | .flowSequenceEnd :: ts => ([], { f with tokens := ts })
    | .key :: ts =>
      let (k, f) := lonelyKey depth { f with tokens := ts }
      let (v, f) := value depth (endsFlowValue .flowSequenceEnd) false f
      let unended := if f.tokens.isEmpty then [(.broken, .broken)] else []
      let (xs, f) := moreItems depth f
      (.mapping {} ((k, v) :: unended) :: xs, f)
    | _ =>
      let (x, f) := node depth false false f
      let (xs, f) := moreItems depth f
      (x :: xs, f)

/-- Reads the key of a mapping that is an item. Where it is left out, the next token counts for
it. -/
def lonelyKey (depth : Nat) (f : Feed) : Node × Feed :=
  match depth with
  | 0 => f.fail
  | depth + 1 =>
    if f.tokens.head?.any (endsFlowKey .flowSequenceEnd) then
      (.omitted, { f with tokens := f.tokens.tail })
    else node depth false false f

def moreItems (depth : Nat) (f : Feed) : List Node × Feed :=
  match depth with
  | 0 => ([.broken], f.fail.2)
  | depth + 1 =>
    match f.tokens with
    | .flowEntry :: ts => flowItems depth { f with tokens := ts }
    | .flowSequenceEnd :: ts => ([], { f with tokens := ts })
    | _ => ([.broken], f.fail.2)

/-- Reads the entries of a mapping in brackets. -/
def flowEntries (depth : Nat) (f : Feed) : List (Node × Node) × Feed :=
  match depth with
  | 0 => ([(.broken, .broken)], f.fail.2)
  | depth + 1 =>
    match f.tokens with
    | .flowMappingEnd :: ts => ([], { f with tokens := ts })
    | .key :: ts =>
      let (k, f) :=
        nodeUnless depth (endsFlowKey .flowMappingEnd) false false { f with tokens := ts }
      let (v, f) := value depth (endsFlowValue .flowMappingEnd) false f
      let (xs, f) := moreEntries depth f
      ((k, v) :: xs, f)
    | _ =>
      let (k, f) := node depth false false f
      let v := if f.tokens.isEmpty then .broken else .omitted
      let (xs, f) := moreEntries depth f
      ((k, v) :: xs, f)

def moreEntries (depth : Nat) (f : Feed) : List (Node × Node) × Feed :=
  match depth with
  | 0 => ([(.broken, .broken)], f.fail.2)
  | depth + 1 =>
    match f.tokens with
    | .flowEntry :: ts => flowEntries depth { f with tokens := ts }
    | .flowMappingEnd :: ts => ([], { f with tokens := ts })
    | _ => ([(.broken, .broken)], f.fail.2)

end

end Feed

/-- The first document of a text. -/
structure Document where
  root : Node
  /-- Whether the text ends with the document. -/
  isOnly : Bool
  /-- The nodes with a name, the last one first. -/
  named : List (Nat × Node) := root.named.reverse

namespace Document

/-- The node that a reference to a name with the given number leads to. -/
def target? (d : Document) (number : Nat) : Option Node := d.named.lookup number

/-- The document whose root begins with `tokens`. -/
def read (handles : List (String × List UInt8)) (tokens : List Token) (hasRoot : Bool) : Document :=
  let f : Feed := { tokens, handles }
  let (root, f) :=
    if hasRoot then f.node (4 * tokens.length + 4) true false else (.omitted, f)
  { root, isOnly := f.tokens.dropWhile (· = .documentEnd) = [.streamEnd] }

def directive? : Token → Option Directive
  | .directive d => some d
  | _ => none

/-- Whether a root is left out in front of a token. -/
def endsRoot (t : Token) : Bool :=
  t = .documentStart || t = .documentEnd || t = .streamEnd || (directive? t).isSome

/-- A document begins with its root, or with `---` after its directives. The root is left out in an
empty text, and may be left out after `---`. -/
def ofTokens (tokens : List Token) : Document :=
  let isDirective (t : Token) := (directive? t).isSome
  let directives := (tokens.takeWhile isDirective).filterMap directive?
  match tokens.dropWhile isDirective, Directive.handles? directives with
  | .documentStart :: ts, some handles => read handles ts (!ts.head?.any endsRoot)
  | ts, some handles =>
    if directives = [] then read handles ts (ts ≠ [.streamEnd])
    else { root := .broken, isOnly := false }
  | _, none => { root := .broken, isOnly := false }

def ofText (text : String) : Document := ofTokens (Tokens.ofText text)

end Document

end ApiHeaders.Yaml
