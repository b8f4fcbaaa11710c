/-!
# Decimal text of binary fractions

A number that is written in decimal is held as the nearest binary fraction of 53 bits, and is
written again with the fewest digits that identify that fraction.

## Main definitions

* `Decimal` is a number with its decimal digits, `Binary` one with its binary digits.
* `Decimal.nearest?` rounds to a `Binary`, a tie to the even significand.
* `Binary.shortest` finds the fewest digits that are nearest to a `Binary`.
* `Decimal.positional` writes a number without an exponent.
-/

namespace ApiHeaders

/-- The number `digits * 10 ^ exponent`. -/
structure Decimal where
  digits : Nat
  exponent : Int
  deriving DecidableEq, Repr

/-- The number `significand * 2 ^ exponent`, where the significand is below `2 ^ 53`, and at least
`2 ^ 52` unless the exponent is `-1074`. -/
structure Binary where
  significand : Nat
  exponent : Int
  deriving DecidableEq, Repr

/-- Numerator and denominator of `n * base ^ exponent`. -/
def scaled (n base : Nat) (exponent : Int) : Nat × Nat :=
  (n * Nat.pow base exponent.toNat, Nat.pow base (-exponent).toNat)

/-- The nearest whole number to a quotient, and the even one of two that are equally near. -/
def roundQuotient (num den : Nat) : Nat :=
  let q := num / den
  let twice := 2 * (num % den)
  if den < twice || (twice = den && q % 2 = 1) then q + 1 else q

namespace Decimal

/-- The nearest binary fraction. None for numbers above all of them. -/
def nearest? (d : Decimal) : Option Binary :=
  let magnitude := (Nat.repr d.digits).length + d.exponent
  if d.digits = 0 || magnitude < -330 then some ⟨0, -1074⟩
  else if 310 < magnitude then none
  else
    let (num, den) := scaled d.digits 10 d.exponent
    let quotient (exponent : Int) : Nat × Nat :=
      let (n, m) := scaled num 2 (-exponent)
      (n, m * den)
    let low := max ((num.log2 : Int) - den.log2 - 53) (-1074)
    let exponent := if Nat.pow 2 53 ≤ (quotient low).1 / (quotient low).2 then low + 1 else low
    let significand := roundQuotient (quotient exponent).1 (quotient exponent).2
    let b : Binary :=
      if significand = Nat.pow 2 53 then ⟨Nat.pow 2 52, exponent + 1⟩ else ⟨significand, exponent⟩
    if b.exponent ≤ 971 then some b else none

/-- The text without an exponent, which has a point and a digit on each side of it. -/
def positional (d : Decimal) : String :=
  let digits := (Nat.repr d.digits).toList
  let zeros (n : Nat) := List.replicate n '0'
  let text :=
    if 0 ≤ d.exponent then digits ++ zeros d.exponent.toNat ++ ['.', '0']
    else
      let places := (-d.exponent).toNat
      let padded := zeros (places + 1 - digits.length) ++ digits
      padded.take (padded.length - places) ++ '.' :: padded.drop (padded.length - places)
  String.ofList text

end Decimal

namespace Binary

/-- Whether a decimal is rounded to `b`, that is, lies between the middles of `b` and of its
neighbours. All is counted in quarters of the last bit. -/
def identifiedBy (b : Binary) (d : Decimal) : Bool :=
  let (num, den) := scaled (4 * d.digits) 10 d.exponent
  let (num, den) := ((scaled num 2 (-b.exponent)).1, (scaled num 2 (-b.exponent)).2 * den)
  let below := if b.significand = Nat.pow 2 52 && -1074 < b.exponent then 1 else 2
  let low := (4 * b.significand - below) * den
  let high := (4 * b.significand + 2) * den
  if b.significand % 2 = 0 then low ≤ num && num ≤ high else low < num && num < high

/-- The decimals with the given exponent next to `b`, the nearer one first. Of two that are equally
near the greater one is first. -/
def neighbours (b : Binary) (exponent : Int) : List Decimal :=
  let (num, den) := scaled b.significand 2 b.exponent
  let (num, den) := ((scaled num 10 (-exponent)).1, (scaled num 10 (-exponent)).2 * den)
  let near := (2 * num + den) / (2 * den)
  let other := if num / den = near then near + 1 else near - 1
  [⟨near, exponent⟩, ⟨other, exponent⟩]

/-- The first decimal that identifies `b`, going from coarse exponents to fine ones. -/
def search (b : Binary) : Nat → Int → Decimal
  | 0, exponent => (b.neighbours exponent).headD ⟨0, 0⟩
  | n + 1, exponent =>
    ((b.neighbours exponent).find? (b.identifiedBy ·)).getD (search b n (exponent - 1))

/-- The fewest digits that identify `b`, and of those the nearest to it. No `b` needs more than 17
digits, and its first one does not stand above the place where the search begins. -/
def shortest (b : Binary) : Decimal :=
  if b.significand = 0 then ⟨0, 0⟩
  else
    let (num, den) := scaled b.significand 2 b.exponent
    let whole := (Nat.repr (num / den)).length
    let start : Int :=
      if num < den then -((Nat.repr (den / num)).length : Int) + 1 else whole
    search b 20 start

end Binary

end ApiHeaders
