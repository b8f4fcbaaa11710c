import ApiHeaders.Text.Blank
import ApiHeaders.Text.Pieces

/-!
# Function pointer types

A registry writes a function pointer type as `typedef RET (CC *NAME)PARAMS QUALS;`. An alias with a
trailing return type says the same as `using NAME = auto (CC *)PARAMS QUALS -> RET;`.

## Main definitions

* `FunctionPointer` holds the parts of such a type.
* `FunctionPointer.ofTypedef?` finds them in a definition, starting from the name in its middle.
* `FunctionPointer.usingAlias` writes them as an alias.
-/

namespace ApiHeaders

/-- The parts of a function pointer type. -/
structure FunctionPointer where
  name : List Char
  returnType : List Char
  /-- The calling convention, which may be missing. -/
  convention : List Char
  /-- The parameters with the parentheses around them. -/
  parameters : List Char
  qualifiers : List Char
  deriving DecidableEq, Repr

namespace FunctionPointer

/-- Whether a character can be part of an identifier. -/
def isIdentifierChar (c : Char) : Bool :=
  ('a' ≤ c && c ≤ 'z') || ('A' ≤ c && c ≤ 'Z') || ('0' ≤ c && c ≤ '9') || c = '_'

/-- Whether nothing next to a text would make it part of a longer identifier. -/
def standsAlone (before after : Option Char) : Bool :=
  before.all (!isIdentifierChar ·) && after.all (!isIdentifierChar ·)

/-- Searches on for `token`. `before` is the character before the rest; within the next `skip`
characters no occurrence may begin, because they belong to one that was passed over. -/
def findTokenFrom (token : List Char) (before : Option Char) (skip : Nat) (cs : List Char) :
    Option (List Char × List Char) :=
  match (if skip = 0 then Text.stripStart? token cs else none) with
  | some after =>
    if standsAlone before after.head? then some ([], after)
    else
      match cs with
      | [] => none
      | c :: cs =>
        (findTokenFrom token (some c) (token.length - 1) cs).map fun (pre, post) => (c :: pre, post)
  | none =>
    match cs with
    | [] => none
    | c :: cs =>
      (findTokenFrom token (some c) (skip - 1) cs).map fun (pre, post) => (c :: pre, post)

/-- What stands before and after the first occurrence of `token` that is no part of a longer
identifier. Occurrences that overlap one passed over before are not considered. -/
def findToken (token cs : List Char) : Option (List Char × List Char) :=
  findTokenFrom token none 0 cs

/-- Goes on to the `)` that closes an open parenthesis inside which `depth` others are open. -/
def closeParenthesis : Nat → List Char → Option (List Char × List Char)
  | _, [] => none
  | depth, '(' :: cs =>
    (closeParenthesis (depth + 1) cs).map fun (inner, rest) => ('(' :: inner, rest)
  | 0, ')' :: cs => some ([')'], cs)
  | depth + 1, ')' :: cs =>
    (closeParenthesis depth cs).map fun (inner, rest) => (')' :: inner, rest)
  | depth, c :: cs => (closeParenthesis depth cs).map fun (inner, rest) => (c :: inner, rest)

/-- Cuts a text that starts with a parenthesis after the one that closes it. -/
def cutParentheses : List Char → Option (List Char × List Char)
  | '(' :: cs => (closeParenthesis 0 cs).map fun (inner, rest) => ('(' :: inner, rest)
  | _ => none

/-- The return type and the calling convention, from what stands before the name. -/
def readBefore (cs : List Char) : Option (List Char × List Char) := do
  let code ← Text.stripStart? "typedef".toList (Text.trim cs)
  let (returnType, declarator) ← Text.breakAtLast? '(' code
  let convention ← Text.stripEnd? ['*'] (Text.trim declarator)
  if Text.trim returnType = [] then none
  else return (Text.trim returnType, Text.trim convention)

/-- The parameters and the qualifiers, from what stands after the name. -/
def readAfter (cs : List Char) : Option (List Char × List Char) := do
  let rest ← Text.stripStart? [')'] (Text.trimStart cs)
  let (parameters, rest) ← cutParentheses (Text.trimStart rest)
  let qualifiers ← Text.stripEnd? [';'] (Text.trim rest)
  return (parameters, Text.trim qualifiers)

/-- The parts of a type definition for `name`. -/
def ofTypedef? (name cs : List Char) : Option FunctionPointer := do
  let (before, after) ← findToken name cs
  let (returnType, convention) ← readBefore before
  let (parameters, qualifiers) ← readAfter after
  return { name, returnType, convention, parameters, qualifiers }

/-- The type as an alias with a trailing return type. -/
def usingAlias (p : FunctionPointer) : List Char :=
  "using ".toList ++ p.name ++ " = auto (".toList
    ++ (if p.convention = [] then [] else p.convention ++ [' ']) ++ "*)".toList ++ p.parameters
    ++ (if p.qualifiers = [] then [] else ' ' :: p.qualifiers) ++ " -> ".toList ++ p.returnType
    ++ [';']

end FunctionPointer

end ApiHeaders
