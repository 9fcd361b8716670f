import PatternTree.Kind
import PatternTree.Literal

/-!
# Nodes

A pattern tree is made of nodes of eight kinds. Each kind has a structure that holds its location,
its children and its flags; the structures are parameterised by the trees they hold as children, and
the family `Node` ties the knot.

`Node r` is the type of trees whose root may stand in the place `r`. A constructor is available for
a role exactly when the role admits its kind, so every child stands in a place that admits it: the
capabilities of a tree are a matter of its type and need no check.

* `Node.widen` forgets what is known about the root, and `Node.narrow?` recovers it, with one match
  for each capability.
* `Node.body` and `Node.ofBody` pass between a tree and the structure at its root.
-/

namespace PatternTree

/-! ## The structures of the kinds -/

/-- A name. -/
structure Identifier where
  /-- where the name stands -/
  location : Location := .unset
  /-- the name -/
  name : String := ""
  deriving DecidableEq

/-- The access `object.property` or `object[property]`. -/
structure MemberExpression (ε : Type) where
  /-- where the access stands -/
  location : Location := .unset
  /-- what is accessed -/
  object : Option ε := none
  /-- which property of it -/
  property : Option ε := none
  /-- the property is computed, as in `object[property]` -/
  computed : Bool := false

/-- A destructured array. -/
structure ArrayPattern (π : Type) where
  /-- where the pattern stands -/
  location : Location := .unset
  /-- the patterns of the elements; a skipped element is absent -/
  elements : List (Option π) := []

/-- A destructured object. -/
structure ObjectPattern (ρ : Type) where
  /-- where the pattern stands -/
  location : Location := .unset
  /-- the entries -/
  properties : List ρ := []

/-- An entry `key: value` of a destructured object. -/
structure AssignmentProperty (ε π : Type) where
  /-- where the entry stands -/
  location : Location := .unset
  /-- the key that is looked up -/
  key : Option ε := none
  /-- the pattern its value is matched with -/
  value : Option π := none
  /-- key and pattern are written as one name -/
  shorthand : Bool := false
  /-- the key is computed, as in `[key]: value` -/
  computed : Bool := false

/-- A pattern with a default, `left = right`. -/
structure AssignmentPattern (π ε : Type) where
  /-- where the pattern stands -/
  location : Location := .unset
  /-- the pattern -/
  left : Option π := none
  /-- the default -/
  right : Option ε := none

/-- The pattern `...argument`. -/
structure RestElement (π : Type) where
  /-- where the pattern stands -/
  location : Location := .unset
  /-- what the rest is matched with -/
  argument : Option π := none

/-! ## Trees -/

/-- A tree whose root may stand in a place of the given role. -/
inductive Node : Role → Type where
  /-- a name -/
  | identifier {r : Role} (admitted : r.admits .identifier = true) (body : Identifier) : Node r
  /-- a literal -/
  | literal {r : Role} (admitted : r.admits .literal = true) (body : Literal) : Node r
  /-- a property access -/
  | memberExpression {r : Role} (admitted : r.admits .memberExpression = true)
      (body : MemberExpression (Node (.only .expression))) : Node r
  /-- a destructured array -/
  | arrayPattern {r : Role} (admitted : r.admits .arrayPattern = true)
      (body : ArrayPattern (Node (.only .pattern))) : Node r
  /-- a destructured object -/
  | objectPattern {r : Role} (admitted : r.admits .objectPattern = true)
      (body : ObjectPattern (Node (.only .patternProperty))) : Node r
  /-- a keyed entry of a destructured object -/
  | assignmentProperty {r : Role} (admitted : r.admits .assignmentProperty = true)
      (body : AssignmentProperty (Node (.only .expression)) (Node (.only .pattern))) : Node r
  /-- a pattern with a default -/
  | assignmentPattern {r : Role} (admitted : r.admits .assignmentPattern = true)
      (body : AssignmentPattern (Node (.only .pattern)) (Node (.only .expression))) : Node r
  /-- a rest pattern -/
  | restElement {r : Role} (admitted : r.admits .restElement = true)
      (body : RestElement (Node (.only .pattern))) : Node r

/-- A tree with any root. -/
abbrev AnyNode := Node .any

/-- A tree that can be the target of a binding or an assignment. -/
abbrev Pattern := Node (.only .pattern)

/-- A tree that denotes a value. -/
abbrev Expression := Node (.only .expression)

/-- A tree that can be an entry of an object pattern. -/
abbrev PatternProperty := Node (.only .patternProperty)

/-- The structure of a node of a kind. -/
abbrev Body : Kind → Type
  | .identifier => Identifier
  | .literal => Literal
  | .memberExpression => MemberExpression Expression
  | .arrayPattern => ArrayPattern Pattern
  | .objectPattern => ObjectPattern PatternProperty
  | .assignmentProperty => AssignmentProperty Expression Pattern
  | .assignmentPattern => AssignmentPattern Pattern Expression
  | .restElement => RestElement Pattern

namespace Body

/-- Where the node stands. -/
def location : {k : Kind} → Body k → Location
  | .identifier, b => Identifier.location b
  | .literal, b => Literal.location b
  | .memberExpression, b => MemberExpression.location b
  | .arrayPattern, b => ArrayPattern.location b
  | .objectPattern, b => ObjectPattern.location b
  | .assignmentProperty, b => AssignmentProperty.location b
  | .assignmentPattern, b => AssignmentPattern.location b
  | .restElement, b => RestElement.location b

/-- The same node at another location. -/
def relocate : {k : Kind} → Body k → Location → Body k
  | .identifier, b, l => { (b : Identifier) with location := l }
  | .literal, b, l => { (b : Literal) with location := l }
  | .memberExpression, b, l => { (b : MemberExpression Expression) with location := l }
  | .arrayPattern, b, l => { (b : ArrayPattern Pattern) with location := l }
  | .objectPattern, b, l => { (b : ObjectPattern PatternProperty) with location := l }
  | .assignmentProperty, b, l => { (b : AssignmentProperty Expression Pattern) with location := l }
  | .assignmentPattern, b, l => { (b : AssignmentPattern Pattern Expression) with location := l }
  | .restElement, b, l => { (b : RestElement Pattern) with location := l }

/-- The node with nothing set. -/
def blank : (k : Kind) → Body k
  | .identifier => ({} : Identifier)
  | .literal => ({} : Literal)
  | .memberExpression => ({} : MemberExpression Expression)
  | .arrayPattern => ({} : ArrayPattern Pattern)
  | .objectPattern => ({} : ObjectPattern PatternProperty)
  | .assignmentProperty => ({} : AssignmentProperty Expression Pattern)
  | .assignmentPattern => ({} : AssignmentPattern Pattern Expression)
  | .restElement => ({} : RestElement Pattern)

@[simp] theorem location_relocate {k : Kind} (b : Body k) (l : Location) :
    (relocate b l).location = l := by
  cases k <;> rfl

end Body

namespace Node

variable {r : Role}

/-- The kind of the root. -/
def kind : Node r → Kind
  | .identifier _ _ => .identifier
  | .literal _ _ => .literal
  | .memberExpression _ _ => .memberExpression
  | .arrayPattern _ _ => .arrayPattern
  | .objectPattern _ _ => .objectPattern
  | .assignmentProperty _ _ => .assignmentProperty
  | .assignmentPattern _ _ => .assignmentPattern
  | .restElement _ _ => .restElement

/-- The role of a tree admits the kind of its root. -/
theorem admits_kind (n : Node r) : r.admits n.kind = true := by
  cases n <;> assumption

/-- The structure at the root. -/
def body : (n : Node r) → Body n.kind
  | .identifier _ b => b
  | .literal _ b => b
  | .memberExpression _ b => b
  | .arrayPattern _ b => b
  | .objectPattern _ b => b
  | .assignmentProperty _ b => b
  | .assignmentPattern _ b => b
  | .restElement _ b => b

/-- The tree with a given structure at its root, in a place that admits its kind. -/
def ofBody : (k : Kind) → r.admits k = true → Body k → Node r
  | .identifier, h, b => .identifier h b
  | .literal, h, b => .literal h b
  | .memberExpression, h, b => .memberExpression h b
  | .arrayPattern, h, b => .arrayPattern h b
  | .objectPattern, h, b => .objectPattern h b
  | .assignmentProperty, h, b => .assignmentProperty h b
  | .assignmentPattern, h, b => .assignmentPattern h b
  | .restElement, h, b => .restElement h b

@[simp] theorem kind_ofBody (k : Kind) (h : r.admits k = true) (b : Body k) :
    (ofBody k h b).kind = k := by
  cases k <;> rfl

/-- The same tree in a place that takes any node. -/
def widen (n : Node r) : AnyNode :=
  ofBody n.kind rfl n.body

/-- The same tree as a target of a binding or an assignment, if it is one. -/
def asPattern? : Node r → Option Pattern
  | .identifier _ b => some (.identifier (Role.only_admits _ _) b)
  | .memberExpression _ b => some (.memberExpression (Role.only_admits _ _) b)
  | .arrayPattern _ b => some (.arrayPattern (Role.only_admits _ _) b)
  | .objectPattern _ b => some (.objectPattern (Role.only_admits _ _) b)
  | .assignmentPattern _ b => some (.assignmentPattern (Role.only_admits _ _) b)
  | .restElement _ b => some (.restElement (Role.only_admits _ _) b)
  | .literal _ _ => none
  | .assignmentProperty _ _ => none

/-- The same tree as one that denotes a value, if it does. -/
def asExpression? : Node r → Option Expression
  | .identifier _ b => some (.identifier (Role.only_admits _ _) b)
  | .literal _ b => some (.literal (Role.only_admits _ _) b)
  | .memberExpression _ b => some (.memberExpression (Role.only_admits _ _) b)
  | _ => none

/-- The same tree as an entry of an object pattern, if it is one. -/
def asPatternProperty? : Node r → Option PatternProperty
  | .assignmentProperty _ b => some (.assignmentProperty (Role.only_admits _ _) b)
  | .restElement _ b => some (.restElement (Role.only_admits _ _) b)
  | _ => none

/-- The same tree in a place of another role, if it fits there. -/
def narrow? : (s : Role) → Node r → Option (Node s)
  | .any, n => some n.widen
  | .only .pattern, n => n.asPattern?
  | .only .expression, n => n.asExpression?
  | .only .patternProperty, n => n.asPatternProperty?

/-- Where the root stands. -/
def location (n : Node r) : Location :=
  n.body.location

/-- The same tree with its root at another location. -/
def relocate (n : Node r) (l : Location) : Node r :=
  ofBody n.kind n.admits_kind (n.body.relocate l)

/-- The tree of one node with nothing set. -/
def blank (k : Kind) : AnyNode :=
  ofBody k rfl (.blank k)

@[simp] theorem kind_widen (n : Node r) : n.widen.kind = n.kind := by
  cases n <;> rfl

@[simp] theorem widen_any (n : AnyNode) : n.widen = n := by
  cases n <;> rfl

/-- Narrowing gives back what widening has forgotten. -/
@[simp] theorem narrow?_widen (n : Node r) : n.widen.narrow? r = some n := by
  cases r with
  | any => exact congrArg some ((widen_any _).trans (widen_any n))
  | only c => cases c <;> cases n <;> trivial

end Node

end PatternTree
