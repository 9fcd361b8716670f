import PatternTree.Decimal.Shortest
import PatternTree.Location

/-!
# Literals

A literal is a value together with the text it was written as. `LiteralValue.display` writes the
value for people, as wide and as precise as asked:

* null and the infinities are fixed words;
* truth values and texts are cut to the precision and padded on the right to the width;
* numbers are padded on the left. The precision is the number of places after the point; without one
  the shortest digits are written, never with an exponent, and a tie between two of them goes up.
-/

namespace PatternTree

/-- The value of a literal. -/
inductive LiteralValue where
  /-- the null value -/
  | null
  /-- a truth value -/
  | bool (value : Bool)
  /-- a number -/
  | number (value : Number)
  /-- a text -/
  | string (value : String)
  deriving DecidableEq

/-- Spaces that are missing from a text of the given length to the width. -/
def padding (width : Option Nat) (length : Nat) : List Char :=
  List.replicate (width.getD 0 - length) ' '

/-- A text cut to the precision and padded on the right to the width, both counted in characters. -/
def alignText (width precision : Option Nat) (s : String) : String :=
  let cs := match precision with
    | some n => s.toList.take n
    | none => s.toList
  .ofList (cs ++ padding width cs.length)

/-- A number's text padded on the left to the width. -/
def alignNumber (width : Option Nat) (s : String) : String :=
  .ofList (padding width s.length ++ s.toList)

namespace Magnitude

/-- A magnitude with a number of places, or with as few digits as identify it. -/
def display (precision : Option Nat) (m : Magnitude) : String :=
  match precision with
  | some places => (m.fixed places).positional
  | none => (m.shortest .up).positional

end Magnitude

namespace LiteralValue

/-- Equality of values, numbers being compared numerically. -/
def agrees : LiteralValue → LiteralValue → Bool
  | .null, .null => true
  | .bool a, .bool b => a == b
  | .number a, .number b => a.agrees b
  | .string a, .string b => a == b
  | _, _ => false

/-- The value as a text. -/
def display (width precision : Option Nat) : LiteralValue → String
  | .null => "null"
  | .bool b => alignText width precision (if b then "true" else "false")
  | .number (.infinite false) => "Infinity"
  | .number (.infinite true) => "-Infinity"
  | .number .nan => alignNumber width "NaN"
  | .number (.finite false m) => alignNumber width (m.display precision)
  | .number (.finite true m) => alignNumber width ("-" ++ m.display precision)
  | .string s => alignText width precision s

end LiteralValue

/-- A literal value and the text it was written as. -/
structure Literal where
  /-- where the literal stands -/
  location : Location := .unset
  /-- what it denotes -/
  value : LiteralValue := .null
  /-- how it is written -/
  raw : String := ""
  deriving DecidableEq

end PatternTree
