import ApiHeaders.Yaml.Scalar

/-!
# Block scalars

A block scalar is introduced by `|` or `>` and consists of the lines that are indented more deeply
than what it belongs to. In a folded one (`>`) a single line break between two lines that begin
with text stands for a space.

## Main definitions

* `Block.Header` is what the line of the indicator says.
* `Block.read` reads a block scalar.
-/

namespace ApiHeaders.Yaml.Block

/-- What becomes of the line breaks at the end. -/
inductive Chomping where
  /-- None stays. -/
  | strip
  /-- The first one stays. -/
  | clip
  /-- All stay. -/
  | keep
  deriving DecidableEq, Repr

/-- What the line of the indicator says. -/
structure Header where
  folded : Bool
  chomping : Chomping := .clip
  /-- The indentation relative to what the scalar belongs to, if it is given. -/
  deeper : Option Nat := none

def chomping? : Char → Option Chomping
  | '-' => some .strip
  | '+' => some .keep
  | _ => none

/-- The indentation that a character gives: none for any but a digit, which must not be zero. -/
def Header.readDeeper (h : Header) : List Char → Option (Header × Nat)
  | [] => some (h, 0)
  | c :: _ =>
    if c = '0' then none
    else if c.isDigit then some ({ h with deeper := some (c.toNat - '0'.toNat) }, 1)
    else some (h, 0)

/-- Reads what follows the indicator on its line: a chomping sign and an indentation, in either
order. Gives how many characters these have. -/
def Header.read (folded : Bool) (cs : List Char) : Option (Header × Nat) :=
  match cs.head?.bind chomping? with
  | some chomping => do
    let (h, n) ← Header.readDeeper ({ folded, chomping } : Header) cs.tail
    return (h, n + 1)
  | none => do
    let (h, n) ← Header.readDeeper ({ folded } : Header) cs
    match n, (cs.drop n).head?.bind chomping? with
    | 1, some chomping => return ({ h with chomping }, 2)
    | _, _ => return (h, n)

/-- The lines read so far. -/
structure Lines where
  text : String := ""
  /-- The break after the last line with text. -/
  last : String := ""
  /-- The breaks of the empty lines after that. -/
  empty : String := ""
  /-- Whether the last line with text begins with a blank. -/
  leadingBlank : Bool := false

/-- Begins a line whose text starts with `c`. -/
def Lines.begin (folded : Bool) (l : Lines) (c : Char) : Lines :=
  let last :=
    if folded && l.last = "\n" && !l.leadingBlank && !isBlank c then
      if l.empty.isEmpty then " " else ""
    else l.last
  { text := (l.text ++ last ++ l.empty).push c, leadingBlank := isBlank c }

/-- The text of all lines. -/
def Lines.finish (chomping : Chomping) (l : Lines) : String :=
  match chomping with
  | .strip => l.text
  | .clip => l.text ++ l.last
  | .keep => l.text ++ l.last ++ l.empty

/-- Reads the lines of a block scalar. `indent` is its indentation, and while that is not known,
`widest` is the deepest one seen and `least` the lowest one possible. `inText` says whether the
place is within the text of a line. -/
def readLines (h : Header) (least widest : Nat) (indent : Option Nat) (inText : Bool) (l : Lines)
    (line column : Nat) : List Char → Option (String × Cursor)
  | [] => some (l.finish h.chomping, ⟨[], line, column⟩)
  | c :: cs =>
    if inText then
      if isBreak c then
        readLines h least widest indent false { l with last := String.singleton c } (line + 1) 0 cs
      else
        readLines h least widest indent true { l with text := l.text.push c } line (column + 1) cs
    else if isBreak c then
      readLines h least (max widest column) indent false { l with empty := l.empty.push c }
        (line + 1) 0 cs
    else if isBlank c && indent.all (column < ·) then
      if c = ' ' then readLines h least widest indent false l line (column + 1) cs else none
    else
      let depth := indent.getD (max (max widest column) (max least 1))
      if column = depth then
        readLines h least widest (some depth) true (l.begin h.folded c) line (column + 1) cs
      else some (l.finish h.chomping, ⟨c :: cs, line, column⟩)

/-- Reads a block scalar, from the place after its indicator. `least` is the lowest column at which
something that belongs to the same place could begin. -/
def read (folded : Bool) (least : Nat) (c : Cursor) : Option (String × Cursor) := do
  let (h, n) ← Header.read folded c.rest
  let c ← (c.skip n).finishLine?
  let indent := h.deeper.map (least - 1 + ·)
  match c.rest with
  | [] => return ("", c)
  | _ :: cs => readLines h least 0 indent false {} (c.line + 1) 0 cs

end ApiHeaders.Yaml.Block
