import ApiHeaders.Declaration
import ApiHeaders.Table
import ApiHeaders.Text.Blank
import ApiHeaders.Text.Case
import ApiHeaders.Text.Layout
import ApiHeaders.Text.Pieces

/-!
# Documentation comments

Documentation becomes a block comment. An enumerant that names a property gets labelled lines whose
values share one column:

```text
/**
 * Source gain.
 * Type:    ALfloat
 * Range:   [0.0 - ]
 * Default: 1.0
 */
```

## Main definitions

* `Doc.comment` writes lines as a comment.
* `Doc.propertyLines` lays out a property, `Doc.rangeLines` its range.
* `Doc.render` joins both.
-/

namespace ApiHeaders.Doc

/-- The columns that a line of a comment may take up after its ` * `. -/
def maxColumns : Nat := 77

/-- A line inside a block comment, without spaces at its end. -/
def commentLine (line : String) : String :=
  .ofList ((" * " ++ line).toList.reverse.dropWhile (· = ' ')).reverse ++ "\n"

/-- Lines as a block comment, ended by a line feed. -/
def comment : List String → String
  | [] => ""
  | [line] => "/** " ++ line ++ " */\n"
  | lines => "/**\n" ++ String.join (lines.map commentLine) ++ " */\n"

/-- The label of a line, filled up to the column of the values. -/
def label (columns : Nat) (name : String) : String := Text.padRight columns (name ++ ": ")

/-- The size of the widest label that a property needs. -/
def labelColumns (p : Property) : Nat :=
  if p.default.isSome then "Default: ".length
  else if p.range.isSome || p.valueClass.isSome then "Range: ".length
  else "Type: ".length

/-- An interval from its lower and upper bound. A bound may be missing; the upper one is excluded
unless `=` stands before it. -/
def interval (lower upper : List Char) : String :=
  let upper := Text.trim upper
  let shown :=
    match upper with
    | '=' :: inclusive => Text.trim inclusive
    | [] => []
    | _ => '<' :: upper
  "[" ++ .ofList (Text.trim lower) ++ " - " ++ .ofList shown ++ "]"

/-- The bounds of a numeric range, which stand around the first `..`. -/
def bounds? : List Char → Option (List Char × List Char)
  | [] => none
  | '.' :: '.' :: upper => some ([], upper)
  | c :: cs => (bounds? cs).map fun (lower, upper) => (c :: lower, upper)

theorem eq_of_bounds? {cs lower upper : List Char} (h : bounds? cs = some (lower, upper)) :
    cs = lower ++ '.' :: '.' :: upper := by
  fun_induction bounds? cs generalizing lower with
  | case1 => cases h
  | case2 upper' =>
    cases h
    rfl
  | case3 c cs _ ih =>
    obtain ⟨⟨lower', upper'⟩, hbounds, heq⟩ := Option.map_eq_some_iff.1 h
    cases heq
    rw [ih hbounds, List.cons_append]

/-- Whether another value and the character that closes it or the list still fit on a line. -/
def fits (line value : String) : Bool :=
  line.utf8ByteSize + 2 + value.utf8ByteSize + 1 ≤ maxColumns

/-- Goes on filling `line` with values. A value that does not fit begins a new line below the first
value. Gives the finished lines and the last one. -/
def fill (indent : Nat) (line : String) : List String → List String × String
  | [] => ([], line)
  | value :: values =>
    if fits line value then fill indent (line ++ ", " ++ value) values
    else
      let (lines, last) := fill indent (Text.spaces indent ++ value) values
      ((line ++ ",") :: lines, last)

/-- The values of a range; a value that names a group stands for the members of the group. -/
def rangeValues (groups : Table String (List String)) (range : String) : List String :=
  ((Text.pieces ',' range).map Text.trimmed).flatMap fun value => (groups.get? value).getD [value]

/-- Several values between brackets, one value alone. -/
def listLines (columns : Nat) : List String → List String
  | [] => [label columns "Range"]
  | [value] => [label columns "Range" ++ value]
  | value :: values =>
    let (lines, last) := fill (columns + 1) (label columns "Range" ++ "[" ++ value) values
    lines ++ [last ++ "]"]

/-- The lines of a range. -/
def rangeLines (groups : Table String (List String)) (columns : Nat) (range : String) :
    List String :=
  match bounds? range.toList with
  | some (lower, upper) => [label columns "Range" ++ interval lower upper]
  | none => listLines columns (rangeValues groups range)

/-- A default value; one of several parts is shown in braces. -/
def defaultText (value : String) : String :=
  if ',' ∈ value.toList then "\x7b" ++ Text.replaceChar ',' ", " value ++ "\x7d" else value

/-- The labelled lines of a property. -/
def propertyLines (groups : Table String (List String)) (p : Property) : List String :=
  let columns := labelColumns p
  (p.type.map fun type => label columns "Type" ++ Text.replaceChar ',' ", " type).toList
    ++ (p.range.map (rangeLines groups columns)).getD []
    ++ (p.valueClass.map fun c =>
      label columns "Range" ++ "any valid " ++ Text.titleWords c ++ " ID").toList
    ++ (p.default.map fun value => label columns "Default" ++ defaultText value).toList

/-- Whether documentation has a headline: a first line, an empty one and more. -/
def hasHeadline : List String → Bool
  | _ :: second :: _ :: _ => Text.trimmed second = ""
  | _ => false

/-- The lines of documentation with those of a property put in: below the headline, or, if there
is none, after an empty line at the end. -/
def lines (groups : Table String (List String)) (property : Option Property) :
    List String → List String
  | [] => []
  | first :: rest =>
    let more := (property.map (propertyLines groups)).getD []
    if hasHeadline (first :: rest) then first :: more ++ rest
    else if rest ≠ [] && property.isSome then first :: rest ++ [""] ++ more
    else first :: rest ++ more

/-- Documentation as a block comment. Without documentation there is none, whatever the
property. -/
def render (groups : Table String (List String)) (property : Option Property)
    (doc : Option (List String)) : String :=
  comment (lines groups property (doc.getD []))

/-- Documentation consists of complete lines. -/
theorem render_eq_or (groups : Table String (List String)) (property : Option Property)
    (doc : Option (List String)) :
    render groups property doc = "" ∨ ∃ text, render groups property doc = text ++ "\n" := by
  unfold render
  generalize lines groups property (doc.getD []) = ls
  fun_cases comment ls with
  | case1 => exact .inl rfl
  | case2 line => exact .inr ⟨"/** " ++ line ++ " */", by simp [String.append_assoc]⟩
  | case3 ls => exact .inr ⟨"/**\n" ++ String.join (ls.map commentLine) ++ " */", by
      simp [String.append_assoc]⟩

end ApiHeaders.Doc
