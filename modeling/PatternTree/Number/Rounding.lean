import PatternTree.Number.Basic

/-!
# Rounding to a double

* `roundDiv` rounds a quotient of natural numbers to the nearest natural number, a tie to the even
  one.
* `Magnitude.nearest?` rounds a quotient to the nearest double: it picks the scale on which the
  value has 53 significant bits, or the finest scale for small values, and rounds on that scale.
  Rounding up to `2 ^ 53` moves to the next scale. A value beyond the largest double has no nearest
  magnitude.
* `Magnitude.ofDecimal?` and `Number.ofInt` round decimal numbers and integers.
-/

namespace PatternTree

/-- The natural number nearest to `num / den`; of two equally near ones the even one. -/
def roundDiv (num den : Nat) : Nat :=
  let q := num / den
  let r := num % den
  if 2 * r < den then q
  else if den < 2 * r then q + 1
  else if q % 2 = 0 then q
  else q + 1

/-- How many decimal digits a natural number has; zero has one. -/
def decimalLength (n : Nat) : Nat :=
  (Nat.toDigits 10 n).length

namespace Magnitude

/-- The double nearest to `num / den`, a tie going to the even mantissa; `none` above the
largest. -/
def nearest? (num den : Nat) : Option Magnitude :=
  let scaled := num * unitsPerOne
  let exponent := (scaled / den).log2 - 52
  let mantissa := roundDiv scaled (den * Nat.pow 2 exponent)
  if mantissa = 0x20000000000000 then ofParts? 0x10000000000000 (exponent + 1)
  else ofParts? mantissa exponent

/-- The double nearest to `digits * 10 ^ exponent`; `none` above the largest. Values from `10 ^ 309`
on are above it and values below `10 ^ -324` are nearest to zero, so that no huge power is
computed. -/
def ofDecimal? (digits : Nat) (exponent : Int) : Option Magnitude :=
  let order := decimalLength digits + exponent
  if digits = 0 ∨ order ≤ -324 then some zero
  else if 310 ≤ order then none
  else if 0 ≤ exponent then nearest? (digits * Nat.pow 10 exponent.toNat) 1
  else nearest? digits (Nat.pow 10 (-exponent).toNat)

end Magnitude

namespace Number

/-- The double with a sign and a magnitude, infinite if there is none. -/
def ofMagnitude (negative : Bool) : Option Magnitude → Number
  | some m => .finite negative m
  | none => .infinite negative

/-- The double nearest to an integer. -/
def ofInt (n : Int) : Number :=
  ofMagnitude (n < 0) (Magnitude.nearest? n.natAbs 1)

end Number

end PatternTree
