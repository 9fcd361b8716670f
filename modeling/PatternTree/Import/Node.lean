import PatternTree.Import.Field
import PatternTree.Validation

/-!
# Reading a tree from a document

A node is an object whose `type` is one of nine **tags**; two of them name the same kind, an entry
of an object pattern. Its children are read as nodes of any kind and then checked for their place,
in the order of the fields, so that the first fault in that order is the one that is reported. A
list of children is first read to its end and only then checked. The location of a node is read
last, and that of a name or a literal also first, since the faults of their fields carry it.

Each node is reported before it is read.
-/

namespace PatternTree

/-- The tags of nodes. -/
inductive Tag where
  /-- a name -/
  | identifier
  /-- a literal -/
  | literal
  /-- a property access -/
  | memberExpression
  /-- a destructured array -/
  | arrayPattern
  /-- a destructured object -/
  | objectPattern
  /-- an entry of an object -/
  | property
  /-- an entry of an object, by the name of its kind -/
  | assignmentProperty
  /-- a pattern with a default -/
  | assignmentPattern
  /-- a rest pattern -/
  | restElement
  deriving DecidableEq

namespace Tag

/-- Every tag. -/
def all : List Tag :=
  [.identifier, .literal, .memberExpression, .arrayPattern, .objectPattern, .property,
    .assignmentProperty, .assignmentPattern, .restElement]

/-- The text of a tag. -/
def name : Tag → String
  | .identifier => "Identifier"
  | .literal => "Literal"
  | .memberExpression => "MemberExpression"
  | .arrayPattern => "ArrayPattern"
  | .objectPattern => "ObjectPattern"
  | .property => "Property"
  | .assignmentProperty => "AssignmentProperty"
  | .assignmentPattern => "AssignmentPattern"
  | .restElement => "RestElement"

/-- The tag with a given text. -/
def ofName? (s : String) : Option Tag :=
  all.find? (·.name == s)

@[simp] theorem ofName?_name (t : Tag) : ofName? t.name = some t := by
  cases t <;> decide

/-- The name that faults use for a node with the tag. -/
def owner : Tag → String
  | .assignmentProperty => "Property"
  | t => t.name

end Tag

/-- The value of a literal whose location is known. -/
def readLiteralValue (fields : Fields) (l : Location) : Traced LiteralValue :=
  match Fields.value? "value" fields with
  | none => Traced.fail (.missingField "Literal" "value") l
  | some .null => pure .null
  | some (.bool b) => pure (.bool b)
  | some (.string s) => pure (.string s)
  | some (.number n) => pure (.number n.toNumber)
  | some _ =>
    Traced.fail (.invalidField "Literal" "value" "null, a boolean, a number or a string") l

/-- Refuses an entry of an object that is an accessor. -/
def refuseAccessor (fields : Fields) : Traced Unit :=
  match Fields.value? "kind" fields with
  | none => pure ()
  | some (.string "init") => pure ()
  | some _ => do
    let l ← readLocation "Property" fields
    Traced.fail (.invalidField "Property" "kind" "\"init\"") l

/-- Refuses an entry of an object that is a method. -/
def refuseMethod (fields : Fields) : Traced Unit := do
  let method ← readFlag "Property" "method" fields
  if method then
    let l ← readLocation "Property" fields
    Traced.fail (.invalidField "Property" "method" "false") l
  else
    pure ()

namespace Node

mutual

/-- The tree that a document denotes in a place. -/
def read (place : Place) : Document → Traced AnyNode
  | .object fields =>
    match Fields.value? "type" fields with
    | some (.string tag) => do
      Traced.report [.readingNode tag place.field]
      match Tag.ofName? tag with
      | some .identifier => do
        let l ← readLocation "Identifier" fields
        let name ← readString "Identifier" "name" fields l
        let location ← readLocation "Identifier" fields
        pure (.identifier rfl { location, name })
      | some .literal => do
        let l ← readLocation "Literal" fields
        let value ← readLiteralValue fields l
        let raw ← readString "Literal" "raw" fields l
        let location ← readLocation "Literal" fields
        pure (.literal rfl { location, value, raw })
      | some .memberExpression => do
        let object ← readChild "object" fields
        let object ← requireOptional .expression "object" object
        let property ← readChild "property" fields
        let property ← requireOptional .expression "property" property
        let computed ← readFlag "MemberExpression" "computed" fields
        let location ← readLocation "MemberExpression" fields
        pure (.memberExpression rfl { location, object, property, computed })
      | some .arrayPattern => do
        let entries ← readChildren "ArrayPattern" "elements" fields fields
        let elements ← requireEntries .pattern "elements" entries true
        let location ← readLocation "ArrayPattern" fields
        pure (.arrayPattern rfl { location, elements })
      | some .objectPattern => do
        let entries ← readChildren "ObjectPattern" "properties" fields fields
        let properties ← requireList .patternProperty "properties" entries
        let location ← readLocation "ObjectPattern" fields
        pure (.objectPattern rfl { location, properties })
      | some .property | some .assignmentProperty => do
        refuseAccessor fields
        refuseMethod fields
        let key ← readChild "key" fields
        let key ← requireOptional .expression "key" key
        let value ← readChild "value" fields
        let value ← requireOptional .pattern "value" value
        let shorthand ← readFlag "Property" "shorthand" fields
        let computed ← readFlag "Property" "computed" fields
        let location ← readLocation "Property" fields
        pure (.assignmentProperty rfl { location, key, value, shorthand, computed })
      | some .assignmentPattern => do
        let left ← readChild "left" fields
        let left ← requireOptional .pattern "left" left
        let right ← readChild "right" fields
        let right ← requireOptional .expression "right" right
        let location ← readLocation "AssignmentPattern" fields
        pure (.assignmentPattern rfl { location, left, right })
      | some .restElement => do
        let argument ← readChild "argument" fields
        let argument ← requireOptional .pattern "argument" argument
        let location ← readLocation "RestElement" fields
        pure (.restElement rfl { location, argument })
      | none => do
        let l ← readLocation "node" fields
        Traced.fail (.unknownNodeType tag) l
    | _ => Traced.fail (.notANode place)
  | _ => Traced.fail (.notANode place)
termination_by structural d => d

/-- The child in a field; missing or null it is unset. -/
def readChild (field : String) : List (String × Document) → Traced (Option AnyNode)
  | [] => pure none
  | (key, d) :: rest =>
    if key = field then
      match d with
      | .null => pure none
      | _ => do
        let n ← read ⟨field, none⟩ d
        pure (some n)
    else
      readChild field rest
termination_by structural fields => fields

/-- The list of children in a field of the object with the given fields. -/
def readChildren (owner field : String) (fields : Fields) :
    List (String × Document) → Traced (List (Option AnyNode))
  | [] => do
    let l ← readLocation owner fields
    Traced.fail (.missingField owner field) l
  | (key, d) :: rest =>
    if key = field then
      match d with
      | .array entries => readEntries field 0 entries
      | _ => do
        let l ← readLocation owner fields
        Traced.fail (.notAnArray field) l
    else
      readChildren owner field fields rest
termination_by structural rest => rest

/-- The children that the entries of a list denote, from an index on; null entries are absent. -/
def readEntries (field : String) (index : Nat) : List Document → Traced (List (Option AnyNode))
  | [] => pure []
  | d :: rest =>
    match d with
    | .null => do
      let ns ← readEntries field (index + 1) rest
      pure (none :: ns)
    | _ => do
      let n ← read ⟨field, some index⟩ d
      let ns ← readEntries field (index + 1) rest
      pure (some n :: ns)
termination_by structural ds => ds

end

/-- The tree that a document denotes. -/
def ofDocument (d : Document) : Traced AnyNode :=
  read ⟨"root", none⟩ d

end Node

end PatternTree
