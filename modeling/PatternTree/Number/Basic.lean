/-!
# Double-precision numbers

The numbers of the language are the binary64 numbers. They are held exactly, as integers:

* `Magnitude` is a finite nonnegative double. Every one of them is a whole number of the least
  positive double `2 ^ -1074`, its `units`, and is stored as a mantissa below `2 ^ 53` and the power
  of two it is scaled by. The stored form is canonical, so equal magnitudes are equal as data.
* `Number` adds the sign, the two infinities and the value that is not a number.
* `Number.agrees` is numeric equality: it identifies the two zeros, and the value that is not a
  number does not agree even with itself.
-/

namespace PatternTree

/-- How many least positive doubles make one. -/
def unitsPerOne : Nat := Nat.pow 2 1074

/-- A finite nonnegative double, `mantissa * 2 ^ exponent` units. -/
structure Magnitude where
  /-- the significant bits -/
  mantissa : Nat
  /-- the power of two they are scaled by -/
  exponent : Nat
  /-- there are at most 53 significant bits -/
  mantissa_lt : mantissa < 0x20000000000000
  /-- no bit is wasted, except on the finest scale -/
  canonical : exponent = 0 ∨ 0x10000000000000 ≤ mantissa
  /-- the scale stops short of the infinities -/
  exponent_le : exponent ≤ 2045
  deriving DecidableEq

namespace Magnitude

/-- Zero. -/
def zero : Magnitude :=
  ⟨0, 0, by decide, .inl rfl, by decide⟩

instance : Inhabited Magnitude := ⟨zero⟩

/-- The value, counted in least positive doubles. -/
def units (m : Magnitude) : Nat :=
  m.mantissa * Nat.pow 2 m.exponent

/-- The magnitude with the given parts, if they are in canonical form. -/
def ofParts? (mantissa exponent : Nat) : Option Magnitude :=
  if h : mantissa < 0x20000000000000 ∧ (exponent = 0 ∨ 0x10000000000000 ≤ mantissa) ∧
      exponent ≤ 2045 then
    some ⟨mantissa, exponent, h.1, h.2.1, h.2.2⟩
  else
    none

/-- The value as a whole number, if it is one. -/
def whole? (m : Magnitude) : Option Nat :=
  if m.units % unitsPerOne = 0 then some (m.units / unitsPerOne) else none

end Magnitude

/-- A double. -/
inductive Number where
  /-- not a number -/
  | nan
  /-- one of the two infinities -/
  | infinite (negative : Bool)
  /-- a signed magnitude; both zeros are of this form -/
  | finite (negative : Bool) (magnitude : Magnitude)
  deriving DecidableEq

namespace Number

/-- Positive zero. -/
def zero : Number :=
  .finite false .zero

/-- The number is neither infinite nor `nan`. -/
def isFinite : Number → Bool
  | .finite _ _ => true
  | _ => false

/-- Numeric equality. -/
def agrees : Number → Number → Bool
  | .infinite s, .infinite t => s == t
  | .finite s m, .finite t n => m == n && (s == t || m.mantissa == 0)
  | _, _ => false

/-- The number encoded by 64 bits: a sign, an exponent field of 11 bits, a fraction of 52. -/
def ofBits (bits : UInt64) : Number :=
  let negative := bits.toNat / 0x8000000000000000 % 2 == 1
  let field := bits.toNat / 0x10000000000000 % 2048
  let fraction := bits.toNat % 0x10000000000000
  if h : field = 2047 then
    if fraction = 0 then .infinite negative else .nan
  else if h₀ : field = 0 then
    .finite negative ⟨fraction, 0, by omega, .inl rfl, by omega⟩
  else
    .finite negative ⟨0x10000000000000 + fraction, field - 1, by omega, .inr (by omega), by omega⟩

/-- The largest whole number that is a double together with both its neighbours, `2 ^ 53 - 1`. -/
def maxSafe : Nat := 9007199254740991

/-- The value as an integer, if it is whole and at most `maxSafe` in size. -/
def safeInteger? : Number → Option Int
  | .finite negative m =>
    match m.whole? with
    | some n =>
      if n ≤ maxSafe then some (if negative then -(n : Int) else n) else none
    | none => none
  | _ => none

end Number

end PatternTree
