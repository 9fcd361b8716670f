import PatternTree.Node.Basic
import PatternTree.Traced

/-!
# Checking candidates for a place

Clients that build a tree by hand have nodes of any kind in their hands and want to put them into a
place that asks for a capability. The checks narrow such candidates, and refuse with the fault of
the first one that does not fit:

* `requireNode` checks one candidate for a child;
* `requireEntries` checks a list whose entries may be absent, if that is allowed;
* `requireList` checks a list in which no entry may be absent, and drops the possibility from the
  type.

A list that passes is reported, and so is the reason of a refusal.
-/

namespace PatternTree

/-- Narrows a candidate for a place, or refuses it with its own location. -/
def require (c : Capability) (place : Place) (n : AnyNode) : Traced (Node (.only c)) :=
  match n.narrow? (.only c) with
  | some m => pure m
  | none => do
    Traced.report [.lacksCapability place c n.kind]
    Traced.fail (.missingCapability place c n.kind) n.location

/-- Narrows the candidate for a child. -/
def requireNode (c : Capability) (field : String) (n : AnyNode) : Traced (Node (.only c)) :=
  require c ⟨field, none⟩ n

/-- Narrows an optional candidate for a child; an absent one stays absent. -/
def requireOptional (c : Capability) (field : String) :
    Option AnyNode → Traced (Option (Node (.only c)))
  | none => pure none
  | some n => do
    let m ← requireNode c field n
    pure (some m)

/-- Narrows one entry of a list, or refuses it. -/
def requireEntry (c : Capability) (field : String) (allowAbsent : Bool) (index : Nat) :
    Option AnyNode → Traced (Option (Node (.only c)))
  | none =>
    if allowAbsent then pure none
    else do
      Traced.report [.absentEntry field index]
      Traced.fail (.absentElement field index)
  | some n => do
    let m ← require c ⟨field, some index⟩ n
    pure (some m)

/-- Narrows the entries of a list from an index on, in order. -/
def requireFrom (c : Capability) (field : String) (allowAbsent : Bool) :
    Nat → List (Option AnyNode) → Traced (List (Option (Node (.only c))))
  | _, [] => pure []
  | index, n :: rest => do
    let m ← requireEntry c field allowAbsent index n
    let ms ← requireFrom c field allowAbsent (index + 1) rest
    pure (m :: ms)

/-- Narrows a list of candidates, and reports that it passed. -/
def requireEntries (c : Capability) (field : String) (candidates : List (Option AnyNode))
    (allowAbsent : Bool) : Traced (List (Option (Node (.only c)))) := do
  let ms ← requireFrom c field allowAbsent 0 candidates
  Traced.report [.validated field candidates.length c]
  pure ms

/-- Narrows a list of candidates none of which may be absent. -/
def requireList (c : Capability) (field : String) (candidates : List (Option AnyNode)) :
    Traced (List (Node (.only c))) := do
  let ms ← requireEntries c field candidates false
  pure (ms.filterMap id)

end PatternTree
