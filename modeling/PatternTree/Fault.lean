import PatternTree.Kind
import PatternTree.Location

/-!
# Faults

A **fault** says why a tree or a token could not be built, as a `Cause` with the location of the
offending value. The causes fall into those about the shape of a tree, which a client that builds
the tree by hand can meet as well, and those about the fields of a document. `Cause.message` and
`Fault.message` hold all their wording.
-/

namespace PatternTree

/-- A place in a parent node or document: a field, and an index if the field holds a list. -/
structure Place where
  /-- the name of the field -/
  field : String
  /-- the index in the list that the field holds -/
  index : Option Nat := none
  deriving DecidableEq

namespace Place

/-- The text `field[index]`, or only the field. -/
def display : Place → String
  | ⟨field, some i⟩ => field ++ "[" ++ toString i ++ "]"
  | ⟨field, none⟩ => field

end Place

/-- Why something could not be built. -/
inductive Cause where
  /-- an entry is absent from a list that allows no absent entries -/
  | absentElement (field : String) (index : Nat)
  /-- a node lacks the capability that its place asks for -/
  | missingCapability (place : Place) (expected : Capability) (found : Kind)
  /-- a field that holds a list holds something else -/
  | notAnArray (field : String)
  /-- something stands in the place of a node that is no node at all -/
  | notANode (place : Place)
  /-- the tag names no kind of node -/
  | unknownNodeType (tag : String)
  /-- the tag names no type of token -/
  | unknownTokenType (tag : String)
  /-- a required field is missing -/
  | missingField (node field : String)
  /-- a field has a value of the wrong form -/
  | invalidField (node field expected : String)
  deriving DecidableEq

namespace Cause

/-- The cause in words. -/
def message : Cause → String
  | .absentElement field index =>
    "`" ++ (Place.mk field (some index)).display ++ "` must not be empty"
  | .missingCapability place expected found =>
    "`" ++ place.display ++ "` must be a " ++ expected.name ++ ", found " ++ found.name
  | .notAnArray field => "`" ++ field ++ "` must be an array"
  | .notANode place => "`" ++ place.display ++ "` is not a node"
  | .unknownNodeType tag => "unknown node type `" ++ tag ++ "`"
  | .unknownTokenType tag => "unknown token type `" ++ tag ++ "`"
  | .missingField node field => node ++ " is missing the `" ++ field ++ "` field"
  | .invalidField node field expected => "`" ++ field ++ "` of " ++ node ++ " must be " ++ expected

/-- The cause is about the shape of a tree. -/
def isStructural : Cause → Bool
  | .absentElement _ _ => true
  | .missingCapability _ _ _ => true
  | .notAnArray _ => true
  | .notANode _ => true
  | .unknownNodeType _ => false
  | .unknownTokenType _ => false
  | .missingField _ _ => false
  | .invalidField _ _ _ => false

end Cause

/-- A cause, and where the offending value stands in the source text. -/
structure Fault where
  /-- why -/
  cause : Cause
  /-- the location of the offending value, unset if it has none -/
  location : Location := .unset
  deriving DecidableEq

namespace Fault

/-- The fault in words, with the start of its location if that is known. -/
def message (f : Fault) : String :=
  match f.location.start with
  | some p => f.cause.message ++ " at " ++ p.display
  | none => f.cause.message

end Fault

end PatternTree
