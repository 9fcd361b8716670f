import PatternTree.Document.Basic
import PatternTree.Node.Basic
import PatternTree.Settings.Basic
import PatternTree.Token

/-!
# Documents for trees and tokens

Every node becomes an object with its type, its location as the settings ask for it, and the fields
of its kind. Unset children and skipped elements become null. An entry of an object pattern is
written the way an entry of an object is, as a `Property` that is neither a method nor an accessor.

Numbers that are integers and small enough to be exact are written as integers, other finite numbers
as reals; the rest have no document and become null.
-/

namespace PatternTree

namespace Position

/-- The document of a position. -/
def toDocument (p : Position) : Document :=
  .object [("line", .ofNat p.line.toNat), ("column", .ofNat p.column.toNat),
    ("offset", .ofNat p.offset.toNat)]

end Position

namespace Location

/-- The document of a location; an unset end is null. -/
def toDocument (l : Location) : Document :=
  .object [("start", .ofOption (l.start.map (·.toDocument))),
    ("end", .ofOption (l.stop.map (·.toDocument)))]

/-- The fields that show a location under the given settings. -/
def toFields (settings : Settings) (l : Location) : Fields :=
  (if settings.locations then [("location", l.toDocument)] else []) ++
    match settings.ranges, l.range? with
    | true, some (s, e) => [("range", .array [.ofNat s.toNat, .ofNat e.toNat])]
    | _, _ => []

end Location

namespace Number

/-- The document of a number. -/
def toDocument (x : Number) : Document :=
  match x.safeInteger? with
  | some n => .number (.integer n)
  | none =>
    match x with
    | .finite negative m => .number (.real negative m)
    | _ => .null

end Number

namespace LiteralValue

/-- The document of a literal value. -/
def toDocument : LiteralValue → Document
  | .null => .null
  | .bool b => .bool b
  | .number x => x.toDocument
  | .string s => .string s

end LiteralValue

/-- The object of a node: its type, its location and the fields of its kind. -/
def nodeObject (settings : Settings) (type : String) (l : Location) (fields : Fields) : Document :=
  .object (("type", .string type) :: l.toFields settings ++ fields)

namespace Node

mutual

/-- The document of a tree. -/
def toDocument (settings : Settings) : {r : Role} → Node r → Document
  | _, .identifier _ b =>
    nodeObject settings "Identifier" b.location [("name", .string b.name)]
  | _, .literal _ b =>
    nodeObject settings "Literal" b.location
      [("value", b.value.toDocument), ("raw", .string b.raw)]
  | _, .memberExpression _ ⟨l, object, property, computed⟩ =>
    nodeObject settings "MemberExpression" l
      [("object", expressionDocument settings object),
        ("property", expressionDocument settings property), ("computed", .bool computed)]
  | _, .arrayPattern _ ⟨l, elements⟩ =>
    nodeObject settings "ArrayPattern" l
      [("elements", .array (elementDocuments settings elements))]
  | _, .objectPattern _ ⟨l, properties⟩ =>
    nodeObject settings "ObjectPattern" l
      [("properties", .array (propertyDocuments settings properties))]
  | _, .assignmentProperty _ ⟨l, key, value, shorthand, computed⟩ =>
    nodeObject settings "Property" l
      [("key", expressionDocument settings key), ("value", patternDocument settings value),
        ("kind", .string "init"), ("method", .bool false), ("shorthand", .bool shorthand),
        ("computed", .bool computed)]
  | _, .assignmentPattern _ ⟨l, left, right⟩ =>
    nodeObject settings "AssignmentPattern" l
      [("left", patternDocument settings left), ("right", expressionDocument settings right)]
  | _, .restElement _ ⟨l, argument⟩ =>
    nodeObject settings "RestElement" l [("argument", patternDocument settings argument)]
termination_by structural _ n => n

/-- The document of an optional expression. -/
def expressionDocument (settings : Settings) : Option Expression → Document
  | none => .null
  | some n => n.toDocument settings
termination_by structural n => n

/-- The document of an optional pattern. -/
def patternDocument (settings : Settings) : Option Pattern → Document
  | none => .null
  | some n => n.toDocument settings
termination_by structural n => n

/-- The documents of the elements of an array pattern. -/
def elementDocuments (settings : Settings) : List (Option Pattern) → List Document
  | [] => []
  | n :: rest => patternDocument settings n :: elementDocuments settings rest
termination_by structural n => n

/-- The documents of the entries of an object pattern. -/
def propertyDocuments (settings : Settings) : List PatternProperty → List Document
  | [] => []
  | n :: rest => n.toDocument settings :: propertyDocuments settings rest
termination_by structural n => n

end

end Node

namespace Token

/-- The document of a token. -/
def toDocument (settings : Settings) (t : Token) : Document :=
  .object (("type", .string t.type.name) :: ("value", .string t.value) ::
    t.location.toFields settings)

end Token

namespace Settings

/-- The document of settings. -/
def toDocument (s : Settings) : Document :=
  .object [("locations", .bool s.locations), ("ranges", .bool s.ranges)]

end Settings

end PatternTree
