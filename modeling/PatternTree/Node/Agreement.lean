import PatternTree.Node.Basic

/-!
# Agreement of trees

Two trees **agree** when they are equal up to the numeric equality of their literals: locations,
names, flags and the shape of the trees are compared exactly, numbers by `Number.agrees`. So a tree
that holds a literal which is not a number does not agree with itself.
-/

namespace PatternTree

namespace Literal

/-- Agreement of literals. -/
def agrees (a b : Literal) : Bool :=
  a.location == b.location && a.value.agrees b.value && a.raw == b.raw

end Literal

namespace Node

mutual

/-- Agreement of trees. -/
def agrees : {r : Role} → Node r → {s : Role} → Node s → Bool
  | _, .identifier _ a, _, .identifier _ b => a == b
  | _, .literal _ a, _, .literal _ b => a.agrees b
  | _, .memberExpression _ ⟨l, o, p, c⟩, _, .memberExpression _ ⟨l', o', p', c'⟩ =>
    l == l' && agreesExpression o o' && agreesExpression p p' && c == c'
  | _, .arrayPattern _ ⟨l, es⟩, _, .arrayPattern _ ⟨l', es'⟩ => l == l' && agreesElements es es'
  | _, .objectPattern _ ⟨l, ps⟩, _, .objectPattern _ ⟨l', ps'⟩ => l == l' && agreesProperties ps ps'
  | _, .assignmentProperty _ ⟨l, k, v, h, c⟩, _, .assignmentProperty _ ⟨l', k', v', h', c'⟩ =>
    l == l' && agreesExpression k k' && agreesPattern v v' && h == h' && c == c'
  | _, .assignmentPattern _ ⟨l, p, e⟩, _, .assignmentPattern _ ⟨l', p', e'⟩ =>
    l == l' && agreesPattern p p' && agreesExpression e e'
  | _, .restElement _ ⟨l, p⟩, _, .restElement _ ⟨l', p'⟩ => l == l' && agreesPattern p p'
  | _, _, _, _ => false
termination_by structural _ n => n

/-- Agreement of optional expressions. -/
def agreesExpression : Option Expression → Option Expression → Bool
  | none, none => true
  | some m, some n => m.agrees n
  | _, _ => false
termination_by structural n => n

/-- Agreement of optional patterns. -/
def agreesPattern : Option Pattern → Option Pattern → Bool
  | none, none => true
  | some m, some n => m.agrees n
  | _, _ => false
termination_by structural n => n

/-- Agreement of elements, one by one. -/
def agreesElements : List (Option Pattern) → List (Option Pattern) → Bool
  | [], [] => true
  | m :: ms, n :: ns => agreesPattern m n && agreesElements ms ns
  | _, _ => false
termination_by structural n => n

/-- Agreement of entries, one by one. -/
def agreesProperties : List PatternProperty → List PatternProperty → Bool
  | [], [] => true
  | m :: ms, n :: ns => m.agrees n && agreesProperties ms ns
  | _, _ => false
termination_by structural n => n

end

end Node

end PatternTree
