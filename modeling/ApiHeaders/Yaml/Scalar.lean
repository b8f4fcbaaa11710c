import ApiHeaders.Text.Digit
import ApiHeaders.Yaml.Cursor

/-!
# Scalars within lines

A scalar may go on over several lines. Between two lines the blanks do not count: a single line
break stands for a space, and of several the first one does not count.

## Main definitions

* `Gap` is what stands between two words of a scalar.
* `Scalar.plain`, `Scalar.singleQuoted` and `Scalar.doubleQuoted` read a scalar.
-/

namespace ApiHeaders.Yaml

/-- What stands between two words of a scalar. -/
inductive Gap where
  /-- Blanks within a line. -/
  | blanks (text : String)
  /-- A line break and the breaks after it. An escaped break is `none`. -/
  | breaks (first : Option Char) (more : String)

namespace Gap

def empty : Gap := blanks ""

def isEmpty : Gap → Bool
  | blanks text => text.isEmpty
  | breaks _ _ => false

def isBroken : Gap → Bool
  | blanks _ => false
  | breaks _ _ => true

/-- The text that a gap stands for. -/
def text : Gap → String
  | blanks text => text
  | breaks (some '\n') "" => " "
  | breaks (some '\n') more => more
  | breaks (some c) more => String.singleton c ++ more
  | breaks none more => more

/-- A blank counts only within a line. -/
def pushBlank (c : Char) : Gap → Gap
  | blanks text => blanks (text.push c)
  | breaks first more => breaks first more

def pushBreak (c : Char) : Gap → Gap
  | blanks _ => breaks (some c) ""
  | breaks first more => breaks first (more.push c)

end Gap

namespace Scalar

/-- What ends a word in brackets. -/
def isFlowIndicator (c : Char) : Bool := c = ',' || c = '[' || c = ']' || c = '{' || c = '}'

/-- Whether a `:` in brackets has something after it that makes it ambiguous. -/
def isAmbiguous : List Char → Bool
  | [] => false
  | c :: _ => isFlowIndicator c || c = '?'

/-- Reads a scalar without quotes. `flow` says whether it stands in brackets, and otherwise all of
its lines begin at column `least` or later. `text` is what has been read, and `gap` what has been
passed since. Gives the text, whether the scalar ended after a line break, and the place there. -/
def plain (flow : Bool) (least : Nat) (text : String) (gap : Gap) (line column : Nat) :
    List Char → Option (String × Bool × Cursor)
  | [] => some (text, gap.isBroken, ⟨[], line, column⟩)
  | c :: cs =>
    let stop := some (text, gap.isBroken, (⟨c :: cs, line, column⟩ : Cursor))
    if isBlank c then
      if c = '\t' && gap.isBroken && column < least then none
      else plain flow least text (gap.pushBlank c) line (column + 1) cs
    else if isBreak c then plain flow least text (gap.pushBreak c) (line + 1) 0 cs
    else if !gap.isEmpty && (c = '#' || (!flow && column < least)) then stop
    else if column = 0 && atMarker (c :: cs) then stop
    else if flow && c = ':' && isAmbiguous cs then none
    else if c = ':' && endsWord cs then stop
    else if flow && isFlowIndicator c then stop
    else plain flow least ((text ++ gap.text).push c) Gap.empty line (column + 1) cs

/-- Reads what follows an opening single quote. A quote in the text is written twice. -/
def singleQuoted (text : String) (gap : Gap) (line column : Nat) :
    List Char → Option (String × Cursor)
  | [] => none
  | '\'' :: '\'' :: cs =>
    singleQuoted ((text ++ gap.text).push '\'') Gap.empty line (column + 2) cs
  | '\'' :: cs => some (text ++ gap.text, ⟨cs, line, column + 1⟩)
  | c :: cs =>
    if isBlank c then singleQuoted text (gap.pushBlank c) line (column + 1) cs
    else if isBreak c then singleQuoted text (gap.pushBreak c) (line + 1) 0 cs
    else if column = 0 && atMarker (c :: cs) then none
    else singleQuoted ((text ++ gap.text).push c) Gap.empty line (column + 1) cs

/-- The character that a backslash and a character stand for. -/
def escape? : Char → Option Char
  | '0' => some '\x00'
  | 'a' => some '\x07'
  | 'b' => some '\x08'
  | 't' => some '\t'
  | '\t' => some '\t'
  | 'n' => some '\n'
  | 'v' => some '\x0b'
  | 'f' => some '\x0c'
  | 'r' => some '\r'
  | 'e' => some '\x1b'
  | ' ' => some ' '
  | '"' => some '"'
  | '/' => some '/'
  | '\\' => some '\\'
  | 'N' => some '\x85'
  | '_' => some '\xa0'
  | 'L' => some '\u2028'
  | 'P' => some '\u2029'
  | _ => none

/-- How many hexadecimal digits follow a backslash and a character. -/
def hexLength? : Char → Option Nat
  | 'x' => some 2
  | 'u' => some 4
  | 'U' => some 8
  | _ => none

/-- The character whose number is written with exactly `n` hexadecimal digits. -/
def hexChar? (n : Nat) (digits : List Char) : Option Char :=
  if digits.length = n then do
    let code ← digits.foldlM (fun code c => (Text.digit? 16 c).map (16 * code + ·)) 0
    if code.isValidChar then some (Char.ofNat code) else none
  else none

/-- Reads what follows an opening double quote. -/
def doubleQuoted (text : String) (gap : Gap) (line column : Nat) (cs : List Char) :
    Option (String × Cursor) :=
  match cs with
  | [] => none
  | '"' :: cs => some (text ++ gap.text, ⟨cs, line, column + 1⟩)
  | '\\' :: e :: cs =>
    let text := text ++ gap.text
    if isBreak e then doubleQuoted text (.breaks none "") (line + 1) 0 cs
    else match escape? e with
      | some c => doubleQuoted (text.push c) Gap.empty line (column + 2) cs
      | none =>
        match hexLength? e with
        | some n =>
          match hexChar? n (cs.take n) with
          | some c => doubleQuoted (text.push c) Gap.empty line (column + 2 + n) (cs.drop n)
          | none => none
        | none => none
  | c :: cs =>
    if isBlank c then doubleQuoted text (gap.pushBlank c) line (column + 1) cs
    else if isBreak c then doubleQuoted text (gap.pushBreak c) (line + 1) 0 cs
    else if c = '\\' || (column = 0 && atMarker (c :: cs)) then none
    else doubleQuoted ((text ++ gap.text).push c) Gap.empty line (column + 1) cs
termination_by cs.length
decreasing_by all_goals simp <;> omega

end Scalar

end ApiHeaders.Yaml
