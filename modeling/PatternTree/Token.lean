import PatternTree.Traced

/-!
# Tokens

A token has one of nine types, the text it was scanned from and a location, which is attached after
the token is made. Type and text never change.
-/

namespace PatternTree

/-- The types of token. -/
inductive TokenType where
  /-- a truth value -/
  | boolean
  /-- a name that is no keyword -/
  | identifier
  /-- a keyword -/
  | keyword
  /-- the null value -/
  | null
  /-- a number -/
  | numeric
  /-- a punctuator -/
  | punctuator
  /-- a quoted text -/
  | string
  /-- a regular expression -/
  | regularExpression
  /-- a chunk of a template -/
  | template
  deriving DecidableEq

namespace TokenType

/-- Every type, in the order of their declaration. -/
def all : List TokenType :=
  [.boolean, .identifier, .keyword, .null, .numeric, .punctuator, .string, .regularExpression,
    .template]

theorem mem_all (t : TokenType) : t ∈ all := by
  cases t <;> decide

/-- The tag of a type. -/
def name : TokenType → String
  | .boolean => "Boolean"
  | .identifier => "Identifier"
  | .keyword => "Keyword"
  | .null => "Null"
  | .numeric => "Numeric"
  | .punctuator => "Punctuator"
  | .string => "String"
  | .regularExpression => "RegularExpression"
  | .template => "Template"

/-- The type with a given tag, which must be spelled exactly. -/
def ofName? (tag : String) : Option TokenType :=
  all.find? (·.name == tag)

@[simp] theorem ofName?_name (t : TokenType) : ofName? t.name = some t := by
  cases t <;> decide

/-- The type with a given tag, or the fault that there is none. -/
def ofName (tag : String) (location : Location := .unset) : Traced TokenType :=
  match ofName? tag with
  | some t => pure t
  | none => Traced.fail (.unknownTokenType tag) location

end TokenType

/-- A token of the source text. -/
structure Token where
  /-- the type -/
  type : TokenType
  /-- the text it was scanned from -/
  value : String
  /-- where it stands -/
  location : Location := .unset
  deriving DecidableEq

namespace Token

/-- The token is a punctuator spelled `p`. -/
def isPunctuator (t : Token) (p : String) : Bool :=
  t.type == .punctuator && t.value == p

/-- The token starts a rest element. -/
def isEllipsis (t : Token) : Bool :=
  t.isPunctuator "..."

/-- The token separates elements. -/
def isComma (t : Token) : Bool :=
  t.isPunctuator ","

/-- Sets an end of the location. -/
def set (t : Token) (e : End) (p : Position) : Traced Token := do
  let l ← t.location.set e p
  pure { t with location := l }

end Token

end PatternTree
