import PatternTree.InPlace
import PatternTree.Validation

/-!
# Editing a node

A node is filled slot by slot.

* A `Slot` is a place for one child; its index says of which kind of node it is a slot and which
  capability it asks for. A `Flag` is a truth value of a node.
* An `Edit` is one write to a node of a kind: a **typed** write of a child that is known to fit, a
  **checked** write of a candidate that may not, or a write of a name, a flag or an end of the
  location.
* `Edit.apply` performs a write in place. A checked write narrows its candidates first.
* An end of the location can also be written through the place that holds the node
  (`Node.writeEnd`).
-/

namespace PatternTree

/-- A place for one child, by the kind of its node and the capability it asks for. -/
inductive Slot : Kind → Capability → Type where
  /-- what is accessed -/
  | object : Slot .memberExpression .expression
  /-- which property of it -/
  | property : Slot .memberExpression .expression
  /-- the key of an entry -/
  | key : Slot .assignmentProperty .expression
  /-- the pattern of an entry -/
  | value : Slot .assignmentProperty .pattern
  /-- a pattern that has a default -/
  | left : Slot .assignmentPattern .pattern
  /-- the default -/
  | right : Slot .assignmentPattern .expression
  /-- what the rest is matched with -/
  | argument : Slot .restElement .pattern
  deriving DecidableEq

namespace Slot

/-- The name of the field. -/
def name : {k : Kind} → {c : Capability} → Slot k c → String
  | _, _, .object => "object"
  | _, _, .property => "property"
  | _, _, .key => "key"
  | _, _, .value => "value"
  | _, _, .left => "left"
  | _, _, .right => "right"
  | _, _, .argument => "argument"

/-- What the slot holds. -/
def get : {k : Kind} → {c : Capability} → Slot k c → Body k → Option (Node (.only c))
  | _, _, .object, b => b.object
  | _, _, .property, b => b.property
  | _, _, .key, b => b.key
  | _, _, .value, b => b.value
  | _, _, .left, b => b.left
  | _, _, .right, b => b.right
  | _, _, .argument, b => b.argument

/-- The node with another child in the slot. -/
def set : {k : Kind} → {c : Capability} → Slot k c → Body k → Node (.only c) → Body k
  | _, _, .object, b, n => { b with object := some n }
  | _, _, .property, b, n => { b with property := some n }
  | _, _, .key, b, n => { b with key := some n }
  | _, _, .value, b, n => { b with value := some n }
  | _, _, .left, b, n => { b with left := some n }
  | _, _, .right, b, n => { b with right := some n }
  | _, _, .argument, b, n => { b with argument := some n }

/-- The slot of a kind of node with a given name, and what it asks for. -/
def ofName? (k : Kind) (name : String) : Option ((c : Capability) × Slot k c) :=
  match k, name with
  | .memberExpression, "object" => some ⟨_, .object⟩
  | .memberExpression, "property" => some ⟨_, .property⟩
  | .assignmentProperty, "key" => some ⟨_, .key⟩
  | .assignmentProperty, "value" => some ⟨_, .value⟩
  | .assignmentPattern, "left" => some ⟨_, .left⟩
  | .assignmentPattern, "right" => some ⟨_, .right⟩
  | .restElement, "argument" => some ⟨_, .argument⟩
  | _, _ => none

@[simp] theorem get_set_self {k : Kind} {c : Capability} (s : Slot k c) (b : Body k)
    (n : Node (.only c)) : s.get (s.set b n) = some n := by
  cases s <;> rfl

end Slot

/-- A truth value of a node, by the kind of the node. -/
inductive Flag : Kind → Type where
  /-- the property of an access is computed -/
  | accessComputed : Flag .memberExpression
  /-- key and pattern of an entry are written as one name -/
  | shorthand : Flag .assignmentProperty
  /-- the key of an entry is computed -/
  | keyComputed : Flag .assignmentProperty
  deriving DecidableEq

namespace Flag

/-- What the flag is. -/
def get : {k : Kind} → Flag k → Body k → Bool
  | _, .accessComputed, b => b.computed
  | _, .shorthand, b => b.shorthand
  | _, .keyComputed, b => b.computed

/-- The node with another value of the flag. -/
def set : {k : Kind} → Flag k → Body k → Bool → Body k
  | _, .accessComputed, b, v => { b with computed := v }
  | _, .shorthand, b, v => { b with shorthand := v }
  | _, .keyComputed, b, v => { b with computed := v }

/-- The flag of a kind of node with a given name. -/
def ofName? (k : Kind) (name : String) : Option (Flag k) :=
  match k, name with
  | .memberExpression, "computed" => some .accessComputed
  | .assignmentProperty, "shorthand" => some .shorthand
  | .assignmentProperty, "computed" => some .keyComputed
  | _, _ => none

end Flag

/-- One write to a node of a kind. -/
inductive Edit : Kind → Type where
  /-- an end of the location -/
  | location {k : Kind} (e : End) (p : Position) : Edit k
  /-- the name of an identifier -/
  | name (s : String) : Edit .identifier
  /-- a flag -/
  | flag {k : Kind} (flag : Flag k) (value : Bool) : Edit k
  /-- a child that fits -/
  | child {k : Kind} {c : Capability} (slot : Slot k c) (n : Node (.only c)) : Edit k
  /-- a candidate for a child -/
  | tryChild {k : Kind} {c : Capability} (slot : Slot k c) (n : AnyNode) : Edit k
  /-- elements that fit -/
  | elements (ns : List (Option Pattern)) : Edit .arrayPattern
  /-- candidates for elements -/
  | tryElements (ns : List (Option AnyNode)) : Edit .arrayPattern
  /-- entries that fit -/
  | properties (ns : List PatternProperty) : Edit .objectPattern
  /-- candidates for entries -/
  | tryProperties (ns : List (Option AnyNode)) : Edit .objectPattern

/-- Writes an end of the location of a value, and reports a location that is now out of order. -/
def writeEnd {σ : Type} (location : σ → Location) (relocate : σ → Location → σ) (e : End)
    (p : Position) : InPlace σ Unit := do
  let s ← InPlace.look
  let l ← InPlace.check ((location s).set e p)
  InPlace.update fun s => relocate s l

namespace Edit

/-- Performs a write. -/
def apply : {k : Kind} → Edit k → InPlace (Body k) Unit
  | _, .location e p => writeEnd Body.location Body.relocate e p
  | _, .name s => InPlace.update fun b => { b with name := s }
  | _, .flag f v => InPlace.update fun b => f.set b v
  | _, .child s n => InPlace.update fun b => s.set b n
  | _, .tryChild s n => do
    let m ← InPlace.check (requireNode _ s.name n)
    InPlace.update fun b => s.set b m
  | _, .elements ns => InPlace.update fun b => { b with elements := ns }
  | _, .tryElements ns => do
    let ms ← InPlace.check (requireEntries .pattern "elements" ns true)
    InPlace.update fun b => { b with elements := ms }
  | _, .properties ns => InPlace.update fun b => { b with properties := ns }
  | _, .tryProperties ns => do
    let ms ← InPlace.check (requireList .patternProperty "properties" ns)
    InPlace.update fun b => { b with properties := ms }

end Edit

namespace Node

variable {r : Role}

/-- Performs a write on the structure at the root of a tree. -/
def edit (n : Node r) (e : Edit n.kind) : Changed (Node r) Unit :=
  let b := e.apply n.body
  ⟨ofBody n.kind n.admits_kind b.after, b.result⟩

/-- Writes an end of the location of the root through the place that holds the tree. -/
def writeEnd (e : End) (p : Position) : InPlace (Node r) Unit :=
  PatternTree.writeEnd location relocate e p

end Node

end PatternTree
