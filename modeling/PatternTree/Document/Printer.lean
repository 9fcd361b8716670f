import PatternTree.Decimal.Shortest
import PatternTree.Document.Basic

/-!
# The text of a document

* Integers are written in decimal. A real is written with its shortest digits: positionally when its
  first digit stands between the fifth place after the point and the sixteenth place before it, with
  `.0` when it is whole, and otherwise with an exponent. So the text shows which of the two it is.
* Texts are quoted. Quotes, backslashes and control characters are escaped, all else stands for
  itself.
-/

namespace PatternTree

namespace Numeral

/-- The text of a finite double. -/
def realText (negative : Bool) (m : Magnitude) : String :=
  let d := m.shortest .even
  let text :=
    if d.leading < -5 ∨ 15 < d.leading then d.scientific
    else if 0 ≤ d.exponent then d.positional ++ ".0"
    else d.positional
  if negative then "-" ++ text else text

/-- The text of a numeral. -/
def render : Numeral → String
  | .integer n => toString n
  | .real negative m => realText negative m

end Numeral

namespace Document

/-- A control character as an escape of four hexadecimal digits. -/
def escapeCode (c : Char) : List Char :=
  let n := c.toNat
  ['\\', 'u', '0', '0', Nat.digitChar (n / 16), Nat.digitChar (n % 16)]

/-- A character as it stands between quotes. -/
def escapeChar (c : Char) : List Char :=
  if c = '"' then ['\\', '"']
  else if c = '\\' then ['\\', '\\']
  else if c.toNat < 32 then escapeCode c
  else [c]

/-- A text in quotes. -/
def quote (s : String) : String :=
  .ofList ('"' :: s.toList.flatMap escapeChar ++ ['"'])

mutual

/-- The text of a document, without blanks. -/
def render : Document → String
  | .null => "null"
  | .bool true => "true"
  | .bool false => "false"
  | .number n => n.render
  | .string s => quote s
  | .array entries => "[" ++ renderEntries entries ++ "]"
  | .object fields => "\x7b" ++ renderFields fields ++ "\x7d"

/-- The entries of an array, divided by commas. -/
def renderEntries : List Document → String
  | [] => ""
  | [d] => d.render
  | d :: rest => d.render ++ "," ++ renderEntries rest

/-- The fields of an object, divided by commas. -/
def renderFields : List (String × Document) → String
  | [] => ""
  | [(key, d)] => quote key ++ ":" ++ d.render
  | (key, d) :: rest => quote key ++ ":" ++ d.render ++ "," ++ renderFields rest

end

end Document

end PatternTree
