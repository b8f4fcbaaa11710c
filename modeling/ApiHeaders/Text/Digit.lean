/-!
# Digits

## Main definitions

* `digit?` is the value of a digit in a base of at most sixteen.
-/

namespace ApiHeaders.Text

/-- The value of a digit in a base of at most sixteen. Letters count in either case. -/
def digit? (base : Nat) (c : Char) : Option Nat :=
  let value :=
    if '0' ≤ c ∧ c ≤ '9' then some (c.toNat - '0'.toNat)
    else if 'a' ≤ c ∧ c ≤ 'f' then some (c.toNat - 'a'.toNat + 10)
    else if 'A' ≤ c ∧ c ≤ 'F' then some (c.toNat - 'A'.toNat + 10)
    else none
  value.filter (· < base)

end ApiHeaders.Text
