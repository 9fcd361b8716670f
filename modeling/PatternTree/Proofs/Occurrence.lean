import PatternTree.Proofs.Reading

/-!
# Where the values of a document occur

A document that is read as a tree has values at **places**, and only some of them are children.

* `Document.child?` and `Document.putChild` get and replace the value at a place of an object. A
  value at a place is smaller than the object, so a property of documents can be proved by assuming
  it of the values at all places (`Document.childInduction`).
* A `Step` leads from a node to one of its children: there are seven single children and two lists.
  It knows the kind of the node, the place in the object and the capability that the place asks for.
* `Occurs d path v` says that the steps of `path` lead from `d` to `v` through nodes of the right
  kinds, and `Document.put` replaces what stands at the end of a path.
-/

namespace PatternTree

/-! ## Fields -/

namespace Fields

/-- The fields with a function applied to the value of the first field of a name. -/
def update (name : String) (f : Document → Document) : Fields → Fields
  | [] => []
  | (key, v) :: rest => if key = name then (key, f v) :: rest else (key, v) :: update name f rest

theorem sizeOf_value?_lt {name : String} {fields : Fields} {d : Document}
    (h : value? name fields = some d) : sizeOf d < sizeOf fields := by
  induction fields with
  | nil => cases h
  | cons field rest ih =>
    obtain ⟨key, v⟩ := field
    rw [value?_cons] at h
    rw [List.cons.sizeOf_spec, Prod.mk.sizeOf_spec]
    by_cases hk : key = name
    · rw [if_pos hk] at h
      obtain rfl := Option.some.inj h
      omega
    · rw [if_neg hk] at h
      have := ih h
      omega

end Fields

/-! ## Values at places -/

namespace Document

/-- An entry of a list, or the whole value if no index is given. -/
def itemAt? : Option Nat → Document → Option Document
  | none, d => some d
  | some i, .array entries => entries[i]?
  | some _, _ => none

/-- The value at a place of an object. -/
def child? (place : Place) : Document → Option Document
  | .object fields => (Fields.value? place.field fields).bind (itemAt? place.index)
  | _ => none

theorem child?_field (field : String) (fields : Fields) :
    (object fields).child? ⟨field, none⟩ = Fields.value? field fields := by
  change (Fields.value? field fields).bind some = _
  exact Option.bind_fun_some _

theorem child?_entry {field : String} {fields : Fields} {entries : List Document}
    (h : Fields.value? field fields = some (.array entries)) (i : Nat) :
    (object fields).child? ⟨field, some i⟩ = entries[i]? := by
  change (Fields.value? field fields).bind (itemAt? (some i)) = _
  rw [h]
  rfl

theorem sizeOf_itemAt?_le {index : Option Nat} {d u : Document} (h : d.itemAt? index = some u) :
    sizeOf u ≤ sizeOf d := by
  cases index with
  | none =>
    obtain rfl := Option.some.inj h
    exact Nat.le_refl _
  | some i =>
    cases d with
    | array entries =>
      have := List.sizeOf_lt_of_mem (List.mem_of_getElem? h)
      rw [array.sizeOf_spec]
      omega
    | _ => cases h

theorem sizeOf_child?_lt {place : Place} {d u : Document} (h : d.child? place = some u) :
    sizeOf u < sizeOf d := by
  cases d with
  | object fields =>
    obtain ⟨w, hw, hu⟩ := Option.bind_eq_some_iff.mp h
    have h₁ := Fields.sizeOf_value?_lt hw
    have h₂ := sizeOf_itemAt?_le hu
    rw [object.sizeOf_spec]
    omega
  | _ => cases h

/-- What holds of a document whenever it holds of the values at its places holds of every
document. -/
theorem childInduction {motive : Document → Prop}
    (step : ∀ d, (∀ place u, d.child? place = some u → motive u) → motive d) (d : Document) :
    motive d :=
  step d fun _ u h =>
    have : sizeOf u < sizeOf d := sizeOf_child?_lt h
    childInduction step u
termination_by sizeOf d

end Document

/-! ## Steps -/

/-- A step from a node to one of its children. -/
inductive Step where
  /-- to what is accessed -/
  | object
  /-- to the property that is accessed -/
  | property
  /-- to the key of an entry -/
  | key
  /-- to the pattern of an entry -/
  | value
  /-- to a pattern that has a default -/
  | left
  /-- to the default -/
  | right
  /-- to what the rest is matched with -/
  | argument
  /-- to an element of an array pattern -/
  | element (index : Nat)
  /-- to an entry of an object pattern -/
  | entry (index : Nat)

namespace Step

/-- The kind of node that the step starts from. -/
def kind : Step → Kind
  | .object => .memberExpression
  | .property => .memberExpression
  | .key => .assignmentProperty
  | .value => .assignmentProperty
  | .left => .assignmentPattern
  | .right => .assignmentPattern
  | .argument => .restElement
  | .element _ => .arrayPattern
  | .entry _ => .objectPattern

/-- What the place of the child asks for. -/
def capability : Step → Capability
  | .object => .expression
  | .property => .expression
  | .key => .expression
  | .value => .pattern
  | .left => .pattern
  | .right => .expression
  | .argument => .pattern
  | .element _ => .pattern
  | .entry _ => .patternProperty

/-- The place of the child in the object of its parent. -/
def place : Step → Place
  | .object => ⟨"object", none⟩
  | .property => ⟨"property", none⟩
  | .key => ⟨"key", none⟩
  | .value => ⟨"value", none⟩
  | .left => ⟨"left", none⟩
  | .right => ⟨"right", none⟩
  | .argument => ⟨"argument", none⟩
  | .element i => ⟨"elements", some i⟩
  | .entry i => ⟨"properties", some i⟩

/-- The place that a path leads to from a place. -/
def endPlace : Place → List Step → Place
  | place, [] => place
  | _, s :: path => endPlace s.place path

end Step

/-- The steps of a path lead from a document to a value, each from an object of the right kind. -/
inductive Occurs : Document → List Step → Document → Prop where
  /-- a document occurs in itself -/
  | here (d : Document) : Occurs d [] d
  /-- what occurs in a child occurs in its parent -/
  | step {fields : Fields} {t : Tag} {s : Step} {u v : Document} {path : List Step}
      (tagged : Tagged fields t) (kind : t.kind = s.kind)
      (child : (Document.object fields).child? s.place = some u) (rest : Occurs u path v) :
      Occurs (.object fields) (s :: path) v

namespace Document

end Document

end PatternTree
