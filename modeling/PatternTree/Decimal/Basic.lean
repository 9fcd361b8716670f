/-!
# Decimal numbers and their texts

A `Decimal` is `digits * 10 ^ exponent`. It has two texts: the **positional** one, with zeros filled
in on either side of the point, and the **scientific** one, with one digit before the point and an
exponent behind it.
-/

namespace PatternTree

/-- The number `digits * 10 ^ exponent`. -/
structure Decimal where
  /-- the significant digits, as a whole number -/
  digits : Nat
  /-- the place of the last of them -/
  exponent : Int
  deriving DecidableEq, Inhabited

namespace Decimal

/-- The digits as characters. -/
def chars (d : Decimal) : List Char :=
  Nat.toDigits 10 d.digits

/-- The exponent of the first digit. -/
def leading (d : Decimal) : Int :=
  d.exponent + d.chars.length - 1

/-- Drops trailing zeros, moving them into the exponent. -/
def trim (d : Decimal) : Decimal :=
  if _ : d.digits ≠ 0 ∧ d.digits % 10 = 0 then trim ⟨d.digits / 10, d.exponent + 1⟩ else d
  termination_by d.digits
  decreasing_by omega

/-- The text without an exponent. A decimal with a negative exponent shows that many places. -/
def positional (d : Decimal) : String :=
  if 0 ≤ d.exponent then
    .ofList (d.chars ++ List.replicate d.exponent.toNat '0')
  else
    let places := (-d.exponent).toNat
    let padded := List.replicate (places + 1 - d.chars.length) '0' ++ d.chars
    let whole := padded.length - places
    .ofList (padded.take whole ++ '.' :: padded.drop whole)

/-- The text with one digit before the point and a signed exponent. -/
def scientific (d : Decimal) : String :=
  let fraction := match d.chars.drop 1 with
    | [] => []
    | rest => '.' :: rest
  let sign := if d.leading < 0 then '-' else '+'
  .ofList (d.chars.take 1 ++ fraction ++ 'e' :: sign :: Nat.toDigits 10 d.leading.natAbs)

end Decimal

end PatternTree
