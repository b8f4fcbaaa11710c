import ApiHeaders.Decimal
import ApiHeaders.Yaml.Tag

/-!
# What a scalar is

A scalar without quotes is null, a truth value or a number if it is written like one, and a string
otherwise. A tag may say which of these it is.

## Main definitions

* `Atom` is what a scalar can be.
* `Atom.ofPlain` is what a scalar without quotes is.
* `Atom.ofScalar?` is what any scalar is, if its text fits its tag.
-/

namespace ApiHeaders.Yaml

inductive Atom where
  | null
  | boolean (b : Bool)
  | natural (n : Nat)
  /-- A whole number with a minus sign in front of it. Zero can have one. -/
  | negative (n : Nat)
  /-- A number that is not whole or not written as such, in its shortest text. -/
  | float (text : String)
  | string (s : String)
  deriving DecidableEq, Repr, Inhabited

namespace Atom

/-- The number that digits stand for. At least one digit is needed. -/
def digits? (base : Nat) (digits : List Char) : Option Nat :=
  if digits.isEmpty then none
  else digits.foldlM (fun n c => (Text.digit? base c).map (base * n + ·)) 0

/-- Whether there is a minus sign, and what follows the sign. -/
def splitSign : List Char → Bool × List Char
  | '-' :: cs => (true, cs)
  | '+' :: cs => (false, cs)
  | cs => (false, cs)

/-- Digits that begin with a zero are not a number, apart from the zero itself. -/
def isPadded (cs : List Char) : Bool :=
  match cs with
  | '0' :: d :: ds => (d :: ds).all (·.isDigit)
  | _ => false

/-- A whole number: decimal, or with `0x`, `0o` or `0b` in front of it. It has at most 128 bits. -/
def integer? (cs : List Char) : Option Atom :=
  let (isNegative, body) := splitSign cs
  let n := match body with
    | '0' :: 'x' :: ds => digits? 16 ds
    | '0' :: 'o' :: ds => digits? 8 ds
    | '0' :: 'b' :: ds => digits? 2 ds
    | _ => if isPadded body then none else digits? 10 body
  n.bind fun n =>
    if isNegative then if n ≤ Nat.pow 2 127 then some (negative n) else none
    else if n < Nat.pow 2 128 then some (natural n) else none

/-- A number with a point or an exponent. -/
def decimal? (cs : List Char) : Option Decimal := do
  let isDigit (c : Char) : Bool := c.isDigit
  let whole := cs.takeWhile isDigit
  let rest := cs.dropWhile isDigit
  let (places, rest) := match rest with
    | '.' :: rest => (rest.takeWhile isDigit, rest.dropWhile isDigit)
    | _ => ([], rest)
  let digits ← digits? 10 (whole ++ places)
  let exponent ← match rest with
    | [] => some 0
    | e :: rest =>
      if e = 'e' || e = 'E' then
        let (isNegative, ds) := splitSign rest
        (digits? 10 ds).map fun n => if isNegative then -(n : Int) else n
      else none
  return { digits, exponent := exponent - places.length }

/-- The text of a number with a point or an exponent, or of an infinity, or of what is not a
number. -/
def float? (cs : List Char) : Option String :=
  let (isNegative, body) := splitSign cs
  let sign := if isNegative then "-" else ""
  if body ∈ [".inf".toList, ".Inf".toList, ".INF".toList] then some (sign ++ "inf")
  else if cs ∈ [".nan".toList, ".NaN".toList, ".NAN".toList] then some "NaN"
  else do
    let b ← (← decimal? body).nearest?
    return sign ++ b.shortest.positional

def boolean? (text : String) : Option Bool :=
  if text ∈ ["true", "True", "TRUE"] then some true
  else if text ∈ ["false", "False", "FALSE"] then some false
  else none

def isNull (text : String) : Bool := text ∈ ["null", "Null", "NULL", "~"]

def ofPlain (text : String) : Atom :=
  if text.isEmpty || isNull text then null
  else match boolean? text with
    | some b => boolean b
    | none =>
      match integer? text.toList with
      | some n => n
      | none =>
        if isPadded (splitSign text.toList).2 then string text
        else match float? text.toList with
          | some s => float s
          | none => string text

/-- What a scalar is. None if its text does not fit its tag. -/
def ofScalar? (tag : Option Tag) (quoted : Bool) (text : String) : Option Atom :=
  match tag with
  | none => some (if quoted then string text else ofPlain text)
  | some t =>
    if t = Tag.boolean then (boolean? text).map boolean
    else if t = Tag.integer then integer? text.toList
    else if t = Tag.float then (float? text.toList).map float
    else if t = Tag.null then if isNull text then some null else none
    else if t.isLocal && !quoted then some (ofPlain text)
    else some (string text)

end Atom

end ApiHeaders.Yaml
