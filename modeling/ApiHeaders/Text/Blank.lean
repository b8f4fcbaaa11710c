/-!
# Blank characters

The characters with the Unicode property `White_Space`, and trimming them off a text.

## Main definitions

* `isBlank` decides the property.
* `trimStart`, `trimEnd` and `trim` drop blank characters at the ends of a list of characters;
  `trimmed` does so for a text.
-/

namespace ApiHeaders.Text

/-- The code points with the property `White_Space`, as inclusive ranges in increasing order. -/
def blankRanges : List (Nat × Nat) := [
  (0x09, 0x0D), (0x20, 0x20), (0x85, 0x85), (0xA0, 0xA0), (0x1680, 0x1680), (0x2000, 0x200A),
  (0x2028, 0x2029), (0x202F, 0x202F), (0x205F, 0x205F), (0x3000, 0x3000)]

/-- Whether a character has the Unicode property `White_Space`. -/
def isBlank (c : Char) : Bool :=
  blankRanges.any fun (lo, hi) => lo ≤ c.toNat && c.toNat ≤ hi

def trimStart (cs : List Char) : List Char := cs.dropWhile isBlank

def trimEnd (cs : List Char) : List Char := (cs.reverse.dropWhile isBlank).reverse

def trim (cs : List Char) : List Char := trimEnd (trimStart cs)

/-- A text without the blank characters at its ends. -/
def trimmed (s : String) : String := .ofList (trim s.toList)

end ApiHeaders.Text
