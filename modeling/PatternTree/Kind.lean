/-!
# Kinds of nodes and the roles they can play

* `Kind` names the eight kinds of node a pattern tree is made of.
* `Capability` names the three restricted places of a tree: where a pattern is wanted, where an
  expression is wanted, and where an entry of an object pattern is wanted. `Capability.admits` is
  the membership table.
* `Role` adds the unrestricted place, which admits every kind. Trees are indexed by the role of
  their root, so a tree with a node in a place that does not admit it cannot be written down.
-/

namespace PatternTree

/-- The kinds of node. -/
inductive Kind where
  /-- a name -/
  | identifier
  /-- a literal value -/
  | literal
  /-- a property access -/
  | memberExpression
  /-- a destructured array -/
  | arrayPattern
  /-- a destructured object -/
  | objectPattern
  /-- a keyed entry of a destructured object -/
  | assignmentProperty
  /-- a pattern with a default -/
  | assignmentPattern
  /-- the rest of an array, of an object or of arguments -/
  | restElement
  deriving DecidableEq

namespace Kind

/-- Every kind, in the order of their declaration. -/
def all : List Kind :=
  [.identifier, .literal, .memberExpression, .arrayPattern, .objectPattern, .assignmentProperty,
    .assignmentPattern, .restElement]

theorem mem_all (k : Kind) : k ∈ all := by
  cases k <;> decide

/-- The name of a kind. -/
def name : Kind → String
  | .identifier => "Identifier"
  | .literal => "Literal"
  | .memberExpression => "MemberExpression"
  | .arrayPattern => "ArrayPattern"
  | .objectPattern => "ObjectPattern"
  | .assignmentProperty => "AssignmentProperty"
  | .assignmentPattern => "AssignmentPattern"
  | .restElement => "RestElement"

/-- The kind of a given name. -/
def ofName? (s : String) : Option Kind :=
  all.find? (·.name == s)

@[simp] theorem ofName?_name (k : Kind) : ofName? k.name = some k := by
  cases k <;> decide

end Kind

/-- What a place in a tree asks of the node put there. -/
inductive Capability where
  /-- the node can be the target of a binding or an assignment -/
  | pattern
  /-- the node denotes a value -/
  | expression
  /-- the node can be an entry of an object pattern -/
  | patternProperty
  deriving DecidableEq

namespace Capability

/-- Every capability, in the order of their declaration. -/
def all : List Capability :=
  [.pattern, .expression, .patternProperty]

/-- The name of a capability. -/
def name : Capability → String
  | .pattern => "Pattern"
  | .expression => "Expression"
  | .patternProperty => "PatternProperty"

/-- The capability of a given name. -/
def ofName? (s : String) : Option Capability :=
  all.find? (·.name == s)

@[simp] theorem ofName?_name (c : Capability) : ofName? c.name = some c := by
  cases c <;> decide

/-- Whether nodes of a kind have the capability. -/
def admits : Capability → Kind → Bool
  | .pattern, .identifier => true
  | .pattern, .memberExpression => true
  | .pattern, .arrayPattern => true
  | .pattern, .objectPattern => true
  | .pattern, .assignmentPattern => true
  | .pattern, .restElement => true
  | .expression, .identifier => true
  | .expression, .literal => true
  | .expression, .memberExpression => true
  | .patternProperty, .assignmentProperty => true
  | .patternProperty, .restElement => true
  | _, _ => false

end Capability

/-- A place in a tree: one that takes any node, or one that asks for a capability. -/
inductive Role where
  /-- any node may stand here -/
  | any
  /-- only nodes with the capability may stand here -/
  | only (c : Capability)
  deriving DecidableEq

namespace Role

/-- Whether a node of the kind may stand in the place. -/
def admits : Role → Kind → Bool
  | .any, _ => true
  | .only c, k => c.admits k

@[simp] theorem any_admits (k : Kind) : Role.any.admits k = true := rfl

@[simp] theorem only_admits (c : Capability) (k : Kind) : (Role.only c).admits k = c.admits k := rfl

end Role

end PatternTree
