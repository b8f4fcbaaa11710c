/-!
# Laying out text

Columns are counted in characters, space that a text takes up is counted in bytes of UTF-8: what
is padded is what a reader sees, what is measured is what is stored.

## Main definitions

* `spaces` and `padRight` fill up columns.
* `escapeWith` writes some characters of a text in another way.
* `replaceTerminator` breaks every `*/` of a text, so that it can stand in a block comment.
-/

namespace ApiHeaders.Text

/-- A text of `n` spaces. -/
def spaces (n : Nat) : String := .ofList (List.replicate n ' ')

@[simp] theorem length_spaces (n : Nat) : (spaces n).length = n := by simp [spaces]

/-- Fills a text up with spaces to `columns` characters; a longer text stays as it is. -/
def padRight (columns : Nat) (s : String) : String := s ++ spaces (columns - s.length)

theorem length_padRight (columns : Nat) (s : String) :
    (padRight columns s).length = max columns s.length := by
  simp only [padRight, String.length_append, length_spaces]
  omega

/-- The text with every character written as `written` says. -/
def escapeWith (written : Char → String) (s : String) : String :=
  .ofList (s.toList.flatMap fun c => (written c).toList)

/-- Writes `written` for every `c`. -/
def replaceChar (c : Char) (written : String) (s : String) : String :=
  escapeWith (fun d => if d = c then written else .singleton d) s

/-- Puts a space between the two characters of every `*/`. -/
def breakTerminator : List Char → List Char
  | '*' :: '/' :: cs => '*' :: ' ' :: '/' :: breakTerminator cs
  | c :: cs => c :: breakTerminator cs
  | [] => []

/-- A text with every `*/` turned into `* /`. -/
def replaceTerminator (s : String) : String := .ofList (breakTerminator s.toList)

end ApiHeaders.Text
