/-!
# Items

An item of source code (a struct, an enum or a union) as far as generated code depends on it, and
its text.

Code is a list of pieces, each of which is a token or a run of tokens; `Code.text` puts single
blanks between them. Types, bounds, attributes and the like are pieces that are passed on as they
are.
-/

namespace PatternTree

/-- A piece of source code, as a list of tokens or runs of tokens. -/
abbrev Code := List String

namespace Code

/-- The text of code: its pieces with one blank between them. Empty pieces leave no trace. -/
def text (code : Code) : String :=
  " ".intercalate (code.filter (· ≠ ""))

/-- Codes one after the other, with a comma between two of them. -/
def commaSeparated : List Code → Code
  | [] => []
  | [c] => c
  | c :: rest => c ++ "," :: commaSeparated rest

/-- Code in braces. -/
def braced (code : Code) : Code :=
  "\x7b" :: code ++ ["\x7d"]

/-- Code in parentheses. -/
def parenthesized (code : Code) : Code :=
  "(" :: code ++ [")"]

/-- Code in angle brackets; nothing if there is none. -/
def angled : Code → Code
  | [] => []
  | code => "<" :: code ++ [">"]

end Code

/-- A generic parameter. -/
inductive Param where
  /-- a lifetime, perhaps with bounds -/
  | lifetime (name bounds : String)
  /-- a type, perhaps with bounds and a default -/
  | type (name bounds : String) (default : Option String)
  /-- a constant of a type, perhaps with a default -/
  | const (name type : String) (default : Option String)
  deriving DecidableEq

namespace Param

/-- The name of a parameter. -/
def name : Param → String
  | .lifetime n _ => n
  | .type n _ _ => n
  | .const n _ _ => n

/-- The bounds of a parameter, behind a colon; nothing if there are none. -/
def boundsCode (bounds : String) : Code :=
  if bounds = "" then [] else [":", bounds]

/-- A default, behind an equals sign; nothing if there is none. -/
def defaultCode : Option String → Code
  | some d => ["=", d]
  | none => []

/-- A parameter with its bounds and without its default. -/
def bare : Param → Code
  | .lifetime n bounds => n :: boundsCode bounds
  | .type n bounds _ => n :: boundsCode bounds
  | .const n t _ => ["const", n, ":", t]

/-- A parameter as it is declared. -/
def declaration : Param → Code
  | .lifetime n bounds => n :: boundsCode bounds
  | .type n bounds default => n :: boundsCode bounds ++ defaultCode default
  | .const n t default => ["const", n, ":", t] ++ defaultCode default

end Param

/-- A field with a name. -/
structure NamedField where
  /-- the attributes, without their brackets -/
  attributes : List String := []
  /-- the visibility, empty if inherited -/
  visibility : String := ""
  /-- the name -/
  name : String
  /-- the type -/
  type : String
  deriving DecidableEq

/-- A field without a name. -/
structure TupleField where
  /-- the attributes, without their brackets -/
  attributes : List String := []
  /-- the visibility, empty if inherited -/
  visibility : String := ""
  /-- the type -/
  type : String
  deriving DecidableEq

/-- The fields of a struct, a union or a variant. -/
inductive Shape where
  /-- no fields at all -/
  | unit
  /-- fields with names -/
  | named (fields : List NamedField)
  /-- fields by position -/
  | tuple (fields : List TupleField)
  deriving DecidableEq

/-- A variant of an enum. -/
structure Variant where
  /-- the attributes, without their brackets -/
  attributes : List String := []
  /-- the name -/
  name : String
  /-- the fields -/
  shape : Shape := .unit
  /-- the discriminant, if it is given -/
  discriminant : Option String := none
  deriving DecidableEq

/-- What kind of item it is, and what it holds. -/
inductive ItemData where
  /-- a struct with fields -/
  | struct (shape : Shape)
  /-- an enum with variants -/
  | enum (variants : List Variant)
  /-- a union with fields -/
  | union (shape : Shape)
  deriving DecidableEq

/-- A struct, an enum or a union. -/
structure Item where
  /-- the attributes, without their brackets -/
  attributes : List String := []
  /-- the visibility, empty if inherited -/
  visibility : String := ""
  /-- the name -/
  name : String
  /-- the generic parameters -/
  params : List Param := []
  /-- the predicates of the where clause -/
  predicates : List String := []
  /-- the kind and the contents -/
  data : ItemData
  deriving DecidableEq

/-! ## The text of an item -/

/-- Attributes in their brackets. -/
def attributesCode (attributes : List String) : Code :=
  attributes.flatMap fun a => ["#", "[", a, "]"]

namespace NamedField

/-- A field as it is declared. -/
def code (f : NamedField) : Code :=
  attributesCode f.attributes ++ [f.visibility, f.name, ":", f.type]

end NamedField

namespace TupleField

/-- A field as it is declared. -/
def code (f : TupleField) : Code :=
  attributesCode f.attributes ++ [f.visibility, f.type]

end TupleField

namespace Shape

/-- The fields in their delimiters. -/
def code : Shape → Code
  | .unit => []
  | .named fields => Code.braced (Code.commaSeparated (fields.map (·.code)))
  | .tuple fields => Code.parenthesized (Code.commaSeparated (fields.map (·.code)))

end Shape

namespace Variant

/-- A variant as it is declared. -/
def code (v : Variant) : Code :=
  attributesCode v.attributes ++ v.name :: v.shape.code ++ Param.defaultCode v.discriminant

end Variant

namespace Item

/-- The where clause; nothing without predicates. -/
def whereCode (item : Item) : Code :=
  match item.predicates with
  | [] => []
  | ps => "where" :: Code.commaSeparated (ps.map ([·]))

/-- The fields of a struct or a union with the where clause in its place. -/
def shapeCode (item : Item) : Shape → Code
  | .unit => item.whereCode ++ [";"]
  | .named fields => item.whereCode ++ (Shape.named fields).code
  | .tuple fields => (Shape.tuple fields).code ++ item.whereCode ++ [";"]

/-- What stands behind the generic parameters. -/
def bodyCode (item : Item) : Code :=
  match item.data with
  | .struct shape => item.shapeCode shape
  | .union shape => item.shapeCode shape
  | .enum variants =>
    item.whereCode ++ Code.braced (Code.commaSeparated (variants.map (·.code)))

/-- The word that introduces an item of this kind. -/
def keyword (item : Item) : String :=
  match item.data with
  | .struct _ => "struct"
  | .enum _ => "enum"
  | .union _ => "union"

/-- The item as it is declared. -/
def code (item : Item) : Code :=
  attributesCode item.attributes ++ [item.visibility, item.keyword, item.name] ++
    Code.angled (Code.commaSeparated (item.params.map (·.declaration))) ++ item.bodyCode

end Item

end PatternTree
