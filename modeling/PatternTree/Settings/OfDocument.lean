import PatternTree.Document.Printer
import PatternTree.Settings.Basic
import PatternTree.Text.Quoted

/-!
# Settings from a document

Settings are an object with the fields `locations` and `ranges`, both optional, or an array that
gives them in this order. A value must be a truth value; no other field is allowed, and no more than
two entries. Fields are looked at in the order of the document, and the first that is wrong is
reported.
-/

namespace PatternTree

namespace Document

/-- What a document is, in words. -/
def describe : Document → String
  | .null => "null"
  | .bool true => "boolean `true`"
  | .bool false => "boolean `false`"
  | .number (.integer n) => "integer `" ++ toString n ++ "`"
  | .number (.real negative m) => "floating point `" ++ Numeral.realText negative m ++ "`"
  | .string s => "string " ++ Text.quoted s
  | .array _ => "sequence"
  | .object _ => "map"

end Document

/-- Why a document does not give settings. -/
inductive SettingsFault where
  /-- a field that settings do not have -/
  | unknownField (key : String)
  /-- a value that is not a truth value -/
  | notABoolean (found : Document)
  /-- a document that is neither an object nor an array -/
  | notSettings (found : Document)
  /-- an array with too many entries -/
  | tooManyEntries (count : Nat)

namespace SettingsFault

/-- The fault in words. -/
def message : SettingsFault → String
  | .unknownField key => "unknown field `" ++ key ++ "`, expected `locations` or `ranges`"
  | .notABoolean found => "invalid type: " ++ found.describe ++ ", expected a boolean"
  | .notSettings found => "invalid type: " ++ found.describe ++ ", expected struct EstreeConfig"
  | .tooManyEntries count =>
    "invalid length " ++ toString count ++ ", expected fewer elements in array"

end SettingsFault

namespace Settings

/-- The position of a switch. -/
def position : Document → Except SettingsFault Bool
  | .bool b => .ok b
  | d => .error (.notABoolean d)

/-- The given settings, changed by the fields of an object. -/
def ofFields (s : Settings) : Fields → Except SettingsFault Settings
  | [] => .ok s
  | (key, d) :: rest =>
    match Switch.ofName? key with
    | some w => do
      let b ← position d
      ofFields (s.set w b) rest
    | none => .error (.unknownField key)

/-- The settings given by the entries of an array. -/
def ofEntries : List Document → Except SettingsFault Settings
  | [] => .ok {}
  | [a] => do
    let locations ← position a
    .ok { locations }
  | [a, b] => do
    let locations ← position a
    let ranges ← position b
    .ok { locations, ranges }
  | a :: b :: rest => do
    let _ ← position a
    let _ ← position b
    .error (.tooManyEntries (rest.length + 2))

/-- The settings that a document denotes. -/
def ofDocument : Document → Except SettingsFault Settings
  | .object fields => ofFields {} fields
  | .array entries => ofEntries entries
  | d => .error (.notSettings d)

end Settings

end PatternTree
