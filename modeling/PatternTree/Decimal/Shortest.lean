import PatternTree.Decimal.Basic
import PatternTree.Number.Rounding

/-!
# Decimals for a double

* `Magnitude.shortest` is the decimal with the fewest digits that still rounds to the double; of
  several such the nearest, and of two equally near ones the one that a `Tie` picks. On the grid of
  decimals with one digit, with two digits and so on, only the two neighbours of the value need to
  be looked at.
* `Magnitude.fixed` is the exact value rounded to a number of places, a tie to the even neighbour.
-/

namespace PatternTree

/-- Which of two equally near decimals is taken. -/
inductive Tie where
  /-- the larger one -/
  | up
  /-- the one whose last digit is even -/
  | even
  deriving DecidableEq

namespace Tie

/-- The choice between a number and the next one. -/
def pick : Tie → Nat → Nat
  | .up, low => low + 1
  | .even, low => if low % 2 = 0 then low else low + 1

end Tie

/-- The reals that round to a double, and the double itself, over a common denominator. -/
structure RoundingInterval where
  /-- the double -/
  value : Nat
  /-- halfway to the double below -/
  lower : Nat
  /-- halfway to the double above -/
  upper : Nat
  /-- what the three are divided by -/
  den : Nat
  /-- the two ends round to the double as well -/
  closed : Bool

namespace RoundingInterval

/-- The exponent of the first digit of the value, which must not be zero. -/
def leading (r : RoundingInterval) : Int :=
  if r.den ≤ r.value then decimalLength (r.value / r.den) - 1
  else -decimalLength ((r.den - 1) / r.value)

/-- One step of the grid of multiples of `10 ^ place`, on the scale of `onGrid`. -/
def step (r : RoundingInterval) (place : Int) : Nat :=
  r.den * Nat.pow 10 place.toNat

/-- A numerator on a scale that keeps the multiples of `10 ^ place` whole. -/
def onGrid (num : Nat) (place : Int) : Nat :=
  num * Nat.pow 10 (-place).toNat

/-- Whether `c * 10 ^ place` lies in the interval. -/
def contains (r : RoundingInterval) (place : Int) (c : Nat) : Bool :=
  let x := c * r.step place
  if r.closed then onGrid r.lower place ≤ x && x ≤ onGrid r.upper place
  else onGrid r.lower place < x && x < onGrid r.upper place

/-- The multiple of `10 ^ place` in the interval that is nearest to the value, if there is one. -/
def candidate? (r : RoundingInterval) (tie : Tie) (place : Int) : Option Nat :=
  let low := onGrid r.value place / r.step place
  let excess := onGrid r.value place % r.step place
  match r.contains place low, r.contains place (low + 1) with
  | true, true =>
    some (if 2 * excess < r.step place then low
      else if r.step place < 2 * excess then low + 1
      else tie.pick low)
  | true, false => some low
  | false, true => some (low + 1)
  | false, false => none

/-- The first grid with a point in the interval, starting at `place` and trying `count` grids, each
ten times finer than the one before. When no grid is left, the value is rounded to the last
place. -/
def search (r : RoundingInterval) (tie : Tie) (place : Int) : Nat → Decimal
  | 0 => ⟨roundDiv (onGrid r.value place) (r.step place), place⟩
  | count + 1 =>
    match r.candidate? tie place with
    | some c => ⟨c, place⟩
    | none => r.search tie (place - 1) count

end RoundingInterval

namespace Magnitude

/-- The interval of reals that round to the double. Its lower half is narrower at a power of two,
where the doubles below lie closer together; its ends belong to it when the mantissa is even. -/
def interval (m : Magnitude) : RoundingInterval :=
  let gap := Nat.pow 2 m.exponent
  let below := if m.mantissa = 0x10000000000000 ∧ 0 < m.exponent then gap else 2 * gap
  { value := 4 * m.units
    lower := 4 * m.units - below
    upper := 4 * m.units + 2 * gap
    den := 4 * unitsPerOne
    closed := m.mantissa % 2 == 0 }

/-- The decimal with the fewest digits that rounds to the double. Seventeen digits always
suffice. -/
def shortest (m : Magnitude) (tie : Tie) : Decimal :=
  if m.mantissa = 0 then ⟨0, 0⟩ else (m.interval.search tie m.interval.leading 17).trim

/-- The exact value, rounded to a number of places after the point. -/
def fixed (m : Magnitude) (places : Nat) : Decimal :=
  ⟨roundDiv (m.units * Nat.pow 10 places) unitsPerOne, -places⟩

end Magnitude

end PatternTree
