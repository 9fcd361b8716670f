import PatternTree.Document.Basic
import PatternTree.Fault

/-!
# Events

What the library reports while it works: a location written out of order, a collection that passed
or failed its check, a node that is being read. An event is a level, a target that says which part
of the library reports it, a message and named fields.
-/

namespace PatternTree

/-- How important an event is. -/
inductive Level where
  /-- something that a client should look at -/
  | warn
  /-- the reason for a failure -/
  | debug
  /-- a step of the work -/
  | trace
  deriving DecidableEq

namespace Level

/-- The name of a level. -/
def name : Level → String
  | .warn => "WARN"
  | .debug => "DEBUG"
  | .trace => "TRACE"

end Level

/-- Something that happened. -/
inductive Event where
  /-- a write left a location that ends before it starts -/
  | outOfOrder (start stop : UInt32)
  /-- a check met an absent entry where none is allowed -/
  | absentEntry (field : String) (index : Nat)
  /-- a check met a node without the required capability -/
  | lacksCapability (place : Place) (expected : Capability) (found : Kind)
  /-- a collection passed its check -/
  | validated (field : String) (length : Nat) (capability : Capability)
  /-- a node with this tag is about to be read for this field -/
  | readingNode (tag field : String)
  deriving DecidableEq

namespace Event

/-- The level of an event. -/
def level : Event → Level
  | .outOfOrder _ _ => .warn
  | .absentEntry _ _ => .debug
  | .lacksCapability _ _ _ => .debug
  | .validated _ _ _ => .trace
  | .readingNode _ _ => .trace

/-- Which part of the library reports an event. -/
def target : Event → String
  | .outOfOrder _ _ => "global_common::pos"
  | .absentEntry _ _ => "ast::node"
  | .lacksCapability _ _ _ => "ast::node"
  | .validated _ _ _ => "ast::node"
  | .readingNode _ _ => "estree::de"

/-- The event in words. -/
def message : Event → String
  | .outOfOrder _ _ => "source location ends before it starts"
  | .absentEntry _ _ => "absent entry where none is allowed"
  | .lacksCapability _ _ _ => "node lacks the required capability"
  | .validated _ _ _ => "validated collection"
  | .readingNode _ _ => "reading node"

/-- An optional index as a text. -/
def indexText : Option Nat → String
  | some i => "Some(" ++ toString i ++ ")"
  | none => "None"

/-- The named fields of an event. -/
def fields : Event → Fields
  | .outOfOrder start stop => [("start", .ofNat start.toNat), ("end", .ofNat stop.toNat)]
  | .absentEntry field index => [("field", .string field), ("index", .ofNat index)]
  | .lacksCapability place expected found =>
    [("field", .string place.field), ("index", .string (indexText place.index)),
      ("expected", .string expected.name), ("found", .string found.name)]
  | .validated field length capability =>
    [("field", .string field), ("len", .ofNat length), ("capability", .string capability.name)]
  | .readingNode tag field => [("ty", .string tag), ("field", .string field)]

end Event

end PatternTree
