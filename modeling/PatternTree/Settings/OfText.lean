import PatternTree.Document.Lexeme
import PatternTree.Settings.Basic

/-!
# Settings from a text

The text of settings is read as it comes, without making a document of it first: the first problem
from left to right decides, be it a problem of the text or of what it says. A key is refused as soon
as it is read, also when it has been given before, and so is a value that is not a truth value.
-/

namespace PatternTree

/-- Why a text does not give settings. -/
inductive TextFault where
  /-- it is not the text of a document -/
  | text (problem : Problem)
  /-- it says something that is no setting -/
  | content
  deriving DecidableEq

namespace Settings

/-- The switches that have been put in a position. -/
structure Given where
  /-- whether locations are shown as pairs of positions -/
  locations : Option Bool := none
  /-- whether locations are shown as pairs of offsets -/
  ranges : Option Bool := none

namespace Given

/-- The position of a switch, if it has been given. -/
def get? (g : Given) : Switch → Option Bool
  | .locations => g.locations
  | .ranges => g.ranges

/-- Gives a switch a position. -/
def set (g : Given) : Switch → Bool → Given
  | .locations, b => { g with locations := some b }
  | .ranges, b => { g with ranges := some b }

/-- The settings, with defaults for what has not been given. -/
def settings (g : Given) : Settings :=
  let defaults : Settings := {}
  { locations := g.locations.getD defaults.locations, ranges := g.ranges.getD defaults.ranges }

end Given

/-- The position of a switch. -/
def positionOfLexeme : Lexeme → Except TextFault Bool
  | .bool b => .ok b
  | .broken _ p => .error (.text p)
  | .null => .error .content
  | .number _ => .error .content
  | .string _ => .error .content
  | .openBrace => .error .content
  | .openBracket => .error .content
  | .closeBrace => .error (.text .malformed)
  | .closeBracket => .error (.text .malformed)
  | .colon => .error (.text .malformed)
  | .comma => .error (.text .malformed)

/-- Nothing may follow the settings. -/
def finish (s : Settings) : List Lexeme → Except TextFault Settings
  | [] => .ok s
  | _ => .error (.text .malformed)

/-- The fields of an object, of which there is at least one more. -/
def ofFieldLexemes (g : Given) : List Lexeme → Except TextFault Settings
  | [] => .error (.text .truncated)
  | .broken true p :: _ => .error (.text p)
  | .string key :: rest =>
    match Switch.ofName? key with
    | none => .error .content
    | some w =>
      match g.get? w, rest with
      | some _, _ => .error .content
      | none, [] => .error (.text .truncated)
      | none, [.colon] => .error (.text .truncated)
      | none, .colon :: value :: rest => do
        let b ← positionOfLexeme value
        match rest with
        | [] => .error (.text .truncated)
        | .closeBrace :: rest => finish (g.set w b).settings rest
        | .comma :: rest => ofFieldLexemes (g.set w b) rest
        | _ => .error (.text .malformed)
      | none, _ => .error (.text .malformed)
  | _ => .error (.text .malformed)

/-- The entries of an array. -/
def ofEntryLexemes : List Lexeme → Except TextFault Settings
  | [] => .error (.text .truncated)
  | .closeBracket :: rest => finish {} rest
  | value :: rest => do
    let locations ← positionOfLexeme value
    match rest with
    | [] => .error (.text .truncated)
    | .closeBracket :: rest => finish { locations } rest
    | [.comma] => .error (.text .truncated)
    | .comma :: value :: rest => do
      let ranges ← positionOfLexeme value
      match rest with
      | [] => .error (.text .truncated)
      | .closeBracket :: rest => finish { locations, ranges } rest
      | _ => .error (.text .malformed)
    | _ => .error (.text .malformed)

/-- The settings that a list of lexemes makes up. -/
def ofLexemes : List Lexeme → Except TextFault Settings
  | [] => .error (.text .truncated)
  | .openBrace :: .closeBrace :: rest => finish {} rest
  | .openBrace :: rest => ofFieldLexemes {} rest
  | .openBracket :: rest => ofEntryLexemes rest
  | .broken _ p :: _ => .error (.text p)
  | .null :: _ => .error .content
  | .bool _ :: _ => .error .content
  | .number _ :: _ => .error .content
  | .string _ :: _ => .error .content
  | _ => .error (.text .malformed)

/-- The settings that a text makes up. -/
def ofText (s : String) : Except TextFault Settings :=
  ofLexemes (Lexeme.ofText s)

end Settings

end PatternTree
