import ApiHeaders.Yaml.Block
import ApiHeaders.Yaml.Directive

/-!
# Tokens

Collections are written with brackets (flow) or by indentation (block). In tokens both have a
beginning and an end. That something is the key of a mapping shows only at the `:` after it, so
each place where a key could begin is remembered until the `:` is found or can come no more.

## Main definitions

* `Token` is a token.
* `KeyStart` is a place where a key may have begun.
* `Tokens` are the tokens of a text so far, `Tokens.step` reads on, and `Tokens.ofText` reads all.

## Faults

Tokens that cannot be read are no error of their own: the list of tokens then ends without
`streamEnd`. A token is not delivered before it is clear whether a key begins with it.
-/

namespace ApiHeaders.Yaml

inductive Token where
  | directive (d : Directive)
  | documentStart
  | documentEnd
  | blockSequenceStart
  | blockMappingStart
  /-- The end of a block collection. -/
  | blockEnd
  | flowSequenceStart
  | flowSequenceEnd
  | flowMappingStart
  | flowMappingEnd
  /-- The `-` of an item. -/
  | blockEntry
  /-- The `,` between items in brackets. -/
  | flowEntry
  | key
  | value
  | anchor (name : String)
  | reference (name : String)
  | tag (w : Tag.Written)
  /-- A scalar without quotes. -/
  | plain (text : String)
  /-- A scalar in quotes or a block. -/
  | string (text : String)
  | streamEnd
  deriving DecidableEq, Repr

/-- A place where a key may have begun. -/
structure KeyStart where
  /-- The number of the token that would be the key. -/
  number : Nat
  /-- Whether nothing but a key can stand there. -/
  required : Bool
  line : Nat
  column : Nat

/-- The tokens of a text so far, and where reading goes on. -/
structure Tokens where
  cursor : Cursor
  tokens : List Token := []
  /-- The indentations of the open block collections, innermost first. -/
  indents : List Nat := []
  /-- Where a key may have begun in the innermost brackets, or outside of all brackets. -/
  candidate : Option KeyStart := none
  /-- The same for what is around the innermost brackets, one for each that is open. -/
  outer : List (Option KeyStart) := []
  /-- Whether a key may begin here. -/
  keyAllowed : Bool := true

namespace Tokens

/-- Whether the place is in brackets. -/
def inFlow (s : Tokens) : Bool := !s.outer.isEmpty

/-- The column where something more deeply indented begins at the earliest. -/
def least (s : Tokens) : Nat := (s.indents.head?.map (· + 1)).getD 0

/-- Adds a token of `n` characters. -/
def emit (s : Tokens) (n : Nat) (t : Token) : Tokens :=
  { s with cursor := s.cursor.skip n, tokens := s.tokens ++ [t] }

/-- Inserts a token in front of the one with the given number. -/
def insertAt (s : Tokens) (number : Nat) (t : Token) : Tokens :=
  { s with tokens := s.tokens.take number ++ t :: s.tokens.drop number }

/-- Where keys may have begun. -/
def candidates (s : Tokens) : List KeyStart := (s.candidate :: s.outer).filterMap id

/-- The tokens of which it is clear whether a key begins with them. -/
def ready (s : Tokens) : List Token :=
  s.tokens.take (s.candidates.foldl (fun n k => min n k.number) s.tokens.length)

/-! ## Places of keys -/

/-- A key is on one line and not longer than 1024 characters. -/
def KeyStart.isOver (k : KeyStart) (c : Cursor) : Bool :=
  k.line < c.line || k.column + 1024 < c.column

/-- Forgets a place where a key can no longer have begun. Fails if it had to be a key. -/
def dropIf (isPast : KeyStart → Bool) : Option KeyStart → Option (Option KeyStart)
  | none => some none
  | some k => if isPast k then if k.required then none else some none else some (some k)

/-- Forgets the places that are too far behind. -/
def dropOver (s : Tokens) : Option Tokens := do
  let isPast (k : KeyStart) := KeyStart.isOver k s.cursor
  let candidate ← dropIf isPast s.candidate
  let outer ← s.outer.mapM (dropIf isPast)
  return { s with candidate, outer }

/-- No key has begun since the last separator. -/
def dropCandidate (s : Tokens) : Option Tokens := do
  let candidate ← dropIf (fun _ => true) s.candidate
  return { s with candidate }

/-- Remembers that a key may begin here. -/
def markKey (s : Tokens) : Option Tokens :=
  if s.keyAllowed then do
    let s ← s.dropCandidate
    return { s with candidate := some {
      number := s.tokens.length
      required := !s.inFlow && s.least = s.cursor.column + 1
      line := s.cursor.line
      column := s.cursor.column } }
  else some s

/-! ## Indentation -/

/-- Ends the block collections for which `p` holds of their indentation. -/
def closeWhile (p : Nat → Bool) (s : Tokens) : Tokens :=
  if s.inFlow then s
  else
    { s with
      tokens := s.tokens ++ List.replicate (s.indents.takeWhile p).length .blockEnd
      indents := s.indents.dropWhile p }

/-- Begins a block collection at a column, in front of the token with the given number, if it is
indented more deeply than what it is in. -/
def openBlock (s : Tokens) (column number : Nat) (t : Token) : Tokens :=
  if !s.inFlow && s.least ≤ column then
    { s.insertAt number t with indents := column :: s.indents }
  else s

/-! ## Reading -/

/-- Passes blanks, comments and line breaks. A tab may not stand where a key may begin. A byte order
mark at the beginning of a line counts as a blank. -/
def skipSpace (flow allowed comment : Bool) (line column : Nat) : List Char → Bool × Cursor
  | [] => (allowed, ⟨[], line, column⟩)
  | c :: cs =>
    if isBreak c then skipSpace flow (allowed || !flow) false (line + 1) 0 cs
    else if comment || c = ' ' || (c = '\t' && (flow || !allowed)) ||
        (c = '\ufeff' && column = 0) then
      skipSpace flow allowed comment line (column + 1) cs
    else if c = '#' then skipSpace flow allowed true line (column + 1) cs
    else (allowed, ⟨c :: cs, line, column⟩)

/-- The end of the text, which ends all block collections. -/
def finish (s : Tokens) : Option Tokens := do
  let s ← (s.closeWhile fun _ => true).dropCandidate
  let c := s.cursor
  let cursor := if c.column = 0 then c else { c with line := c.line + 1, column := 0 }
  return { s.emit 0 .streamEnd with cursor, keyAllowed := false }

/-- A `---` or `...`. -/
def marker (s : Tokens) (t : Token) : Option Tokens := do
  let s ← (s.closeWhile fun _ => true).dropCandidate
  return { s.emit 3 t with keyAllowed := false }

/-- A line with a directive. -/
def directive (s : Tokens) : Option Tokens := do
  let s ← (s.closeWhile fun _ => true).dropCandidate
  let (d, rest) ← Directive.read (s.cursor.rest.drop 1)
  let c ← (s.cursor.skipTo rest).finishLine?
  return { s with
    tokens := s.tokens ++ [.directive d], cursor := c.skipBreak, keyAllowed := false }

def openFlow (s : Tokens) (t : Token) : Option Tokens := do
  let s ← s.markKey
  return { s.emit 1 t with outer := s.candidate :: s.outer, candidate := none, keyAllowed := true }

def closeFlow (s : Tokens) (t : Token) : Option Tokens := do
  let s ← s.dropCandidate
  return { s.emit 1 t with
    candidate := s.outer.head?.getD none, outer := s.outer.tail, keyAllowed := false }

def flowEntry (s : Tokens) : Option Tokens := do
  let s ← s.dropCandidate
  return { s.emit 1 .flowEntry with keyAllowed := true }

/-- An indicator outside of brackets, which may begin a block collection. -/
def blockIndicator (s : Tokens) (start : Token) : Option Tokens :=
  if s.inFlow then some s
  else if s.keyAllowed then some (s.openBlock s.cursor.column s.tokens.length start)
  else none

def blockEntry (s : Tokens) : Option Tokens := do
  let s ← (← s.blockIndicator .blockSequenceStart).dropCandidate
  return { s.emit 1 .blockEntry with keyAllowed := true }

/-- A `?` in front of a key. -/
def explicitKey (s : Tokens) : Option Tokens := do
  let s ← (← s.blockIndicator .blockMappingStart).dropCandidate
  return { s.emit 1 .key with keyAllowed := !s.inFlow }

/-- A `:`, which makes a key of what has begun at the remembered place. -/
def value (s : Tokens) : Option Tokens :=
  match s.candidate with
  | some k =>
    let s := (s.insertAt k.number .key).openBlock k.column k.number .blockMappingStart
    some { s.emit 1 .value with candidate := none, keyAllowed := false }
  | none => do
    let s ← s.blockIndicator .blockMappingStart
    return { s.emit 1 .value with keyAllowed := !s.inFlow }

/-- A name after `&` or `*`. -/
def name (s : Tokens) (t : String → Token) : Option Tokens := do
  let s ← s.markKey
  let word := (s.cursor.rest.drop 1).takeWhile isNameChar
  let after := s.cursor.rest.drop (1 + word.length)
  if !word.isEmpty && (endsWord after || after.head?.any fun c => c ∈ "?:,]\x7d%@`".toList) then
    some { s.emit (1 + word.length) (t (String.ofList word)) with keyAllowed := false }
  else none

/-- A tag. In brackets a comma may follow it at once. -/
def tag (s : Tokens) : Option Tokens := do
  let s ← s.markKey
  let (w, rest) ← Tag.Written.read (s.cursor.rest.drop 1)
  if endsWord rest || (s.inFlow && rest.head? = some ',') then
    return { s with
      tokens := s.tokens ++ [.tag w], cursor := s.cursor.skipTo rest, keyAllowed := false }
  else none

def scalar (s : Tokens) (t : Token) (cursor : Cursor) (keyAllowed : Bool) : Tokens :=
  { s with tokens := s.tokens ++ [t], cursor, keyAllowed }

def blockScalar (s : Tokens) (folded : Bool) : Option Tokens := do
  let s ← s.dropCandidate
  let (text, cursor) ← Block.read folded s.least (s.cursor.skip 1)
  return s.scalar (.string text) cursor true

def quoted (s : Tokens) (double : Bool) : Option Tokens := do
  let s ← s.markKey
  let c := s.cursor.skip 1
  let read := if double then Scalar.doubleQuoted else Scalar.singleQuoted
  let (text, cursor) ← read "" Gap.empty c.line c.column c.rest
  return s.scalar (.string text) cursor false

def plain (s : Tokens) : Option Tokens := do
  let s ← s.markKey
  let c := s.cursor
  let (text, broken, cursor) ← Scalar.plain s.inFlow s.least "" Gap.empty c.line c.column c.rest
  return s.scalar (.plain text) cursor broken

/-- Whether a scalar without quotes may begin with `c` in front of `cs`. -/
def beginsPlain (flow : Bool) (c : Char) (cs : List Char) : Bool :=
  !(c ∈ "-?:,[]\x7b\x7d#&*!|>'\"%@`".toList || isBlank c)
    || (c = '-' && !cs.head?.any isBlank)
    || (!flow && (c = '?' || c = ':') && !endsWord cs)

/-- Reads the token that begins here. -/
def read (s : Tokens) : Option Tokens :=
  match s.cursor.rest with
  | [] => s.finish
  | c :: cs =>
    let mayFollow := s.inFlow || endsWord cs
    if s.cursor.column = 0 && c = '%' then s.directive
    else if s.cursor.column = 0 && atMarker (c :: cs) then
      s.marker (if c = '-' then .documentStart else .documentEnd)
    else if c = '[' then s.openFlow .flowSequenceStart
    else if c = '\x7b' then s.openFlow .flowMappingStart
    else if c = ']' then s.closeFlow .flowSequenceEnd
    else if c = '\x7d' then s.closeFlow .flowMappingEnd
    else if c = ',' then s.flowEntry
    else if c = '-' && endsWord cs then s.blockEntry
    else if c = '?' && mayFollow then s.explicitKey
    else if c = ':' && mayFollow then s.value
    else if c = '*' then s.name .reference
    else if c = '&' then s.name .anchor
    else if c = '!' then s.tag
    else if c = '|' && !s.inFlow then s.blockScalar false
    else if c = '>' && !s.inFlow then s.blockScalar true
    else if c = '\'' then s.quoted false
    else if c = '"' then s.quoted true
    else if beginsPlain s.inFlow c cs then s.plain
    else none

/-- Reads the next token, and those that its place implies. -/
def step (s : Tokens) : Option Tokens := do
  let c := s.cursor
  let (keyAllowed, cursor) := skipSpace s.inFlow s.keyAllowed false c.line c.column c.rest
  let s ← ({ s with keyAllowed, cursor } : Tokens).dropOver
  let s ← (s.closeWhile (cursor.column < ·)).read
  s.dropOver

/-- Reads on for at most `n` steps. -/
def run : Nat → Tokens → List Token
  | 0, s => s.ready
  | n + 1, s =>
    match s.step with
    | some t => if t.tokens.getLast? = some .streamEnd then t.tokens else run n t
    | none => s.ready

/-- The tokens of a text, up to the place where they cannot be read. Each step but the last one
passes a character. -/
def ofText (text : String) : List Token :=
  let cs := text.toList
  if cs.all isAllowed then run (cs.length + 1) { cursor := { rest := unified cs } } else []

end Tokens

end ApiHeaders.Yaml
