/-!
# Places in a text

YAML is read line by line and column by column. A tab counts as one column.

## Main definitions

* `Cursor` is what is left of a text, with the line and column where that begins.
* `isBlank`, `isBreak` and `endsWord` are the classes of characters that separate, `isNameChar` is
  that of names.
* `atMarker` recognises the lines that begin and end a document.
-/

namespace ApiHeaders.Yaml

/-- A space or a tab. -/
def isBlank (c : Char) : Bool := c = ' ' || c = '\t'

/-- A line break, once the breaks of a text are `unified`. -/
def isBreak (c : Char) : Bool := c = '\n' || c = '\u2028' || c = '\u2029'

/-- Whether a blank, a line break or the end comes next. -/
def endsWord : List Char → Bool
  | [] => true
  | c :: _ => isBlank c || isBreak c

/-- A character of a name. -/
def isNameChar (c : Char) : Bool := c.isAlphanum || c = '_' || c = '-'

/-- Whether a document marker comes next: `---` or `...` as a word. -/
def atMarker : List Char → Bool
  | '-' :: '-' :: '-' :: cs => endsWord cs
  | '.' :: '.' :: '.' :: cs => endsWord cs
  | _ => false

/-- The text with `\n` for every line break other than the two Unicode separators, which stay. -/
def unified : List Char → List Char
  | [] => []
  | '\r' :: '\n' :: cs => '\n' :: unified cs
  | c :: cs => (if c = '\r' || c = '\x85' then '\n' else c) :: unified cs

/-- Whether a character may stand in a text at all. -/
def isAllowed (c : Char) : Bool :=
  c = '\t' || c = '\n' || c = '\r' || c = '\x85' || (' ' ≤ c && c ≤ '~')
    || ('\xa0' ≤ c && c.toNat ≠ 0xFFFE && c.toNat ≠ 0xFFFF)

/-- What is left of a text, and where it begins. -/
structure Cursor where
  rest : List Char
  line : Nat := 0
  column : Nat := 0

namespace Cursor

/-- The place after `n` characters of the same line. -/
def skip (c : Cursor) (n : Nat) : Cursor :=
  { c with rest := c.rest.drop n, column := c.column + n }

/-- The place after all characters of the same line that satisfy `p`. -/
def skipWhile (p : Char → Bool) (c : Cursor) : Cursor := c.skip (c.rest.takeWhile p).length

/-- The end of the line. -/
def lineEnd (c : Cursor) : Cursor := c.skipWhile fun x => !isBreak x

/-- The place on the same line where only `rest` is left. -/
def skipTo (c : Cursor) (rest : List Char) : Cursor := c.skip (c.rest.length - rest.length)

/-- The end of the line, if there are only blanks and a comment before it. -/
def finishLine? (c : Cursor) : Option Cursor :=
  let blank := c.skipWhile isBlank
  let c := if blank.rest.head? = some '#' then blank.lineEnd else blank
  if c.rest.head?.all isBreak then some c else none

/-- The place after a line break, if one comes next. -/
def skipBreak (c : Cursor) : Cursor :=
  match c.rest with
  | [] => c
  | _ :: cs => { rest := cs, line := c.line + 1, column := 0 }

end Cursor

end ApiHeaders.Yaml
