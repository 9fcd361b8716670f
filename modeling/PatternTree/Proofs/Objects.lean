import PatternTree.Proofs.RoundTrip

/-!
# The objects of an exported document

An exported document is a nest of objects: one for each node of the tree, and inside it those that
show its location.

* `Document.objects` lists the objects inside a document, an object before those inside it.
* `Node.toDocument_eq` gives every node the same shape: its type, what is shown of its location, and
  the fields of its own (`Node.ownFields`), whose keys its kind determines.
* `Node.objects_toDocument` finds the objects of an exported tree node by node. So whatever holds of
  the object of a single node, and of those that show a location, holds at every depth. One thing
  that does is that no key stands twice in an object (`Node.keys_nodup_of_mem_objects`).
-/

namespace PatternTree

/-! ## Objects inside a document -/

namespace Fields

/-- The keys of an object, in order. -/
def keys (fields : Fields) : List String :=
  fields.map Prod.fst

theorem value?_eq_none_iff {key : String} {fields : Fields} :
    value? key fields = none ↔ key ∉ fields.keys := by
  induction fields with
  | nil => simp [keys]
  | cons field rest ih =>
    obtain ⟨k, v⟩ := field
    rw [value?_cons, keys, List.map_cons, List.mem_cons, not_or]
    by_cases h : k = key
    · simp [h]
    · rw [if_neg h, ih, and_iff_right (Ne.symm h), keys]

end Fields

namespace Document

/-- The fields of an object; other documents have none. -/
def fields : Document → Fields
  | .object fields => fields
  | _ => []

mutual

/-- The objects inside a document, each by its fields, parents first. -/
def objects : Document → List Fields
  | .array entries => entryObjects entries
  | .object fields => fields :: fieldObjects fields
  | .null => []
  | .bool _ => []
  | .number _ => []
  | .string _ => []

/-- The objects inside the entries of an array. -/
def entryObjects : List Document → List Fields
  | [] => []
  | d :: rest => d.objects ++ entryObjects rest

/-- The objects inside the values of fields. -/
def fieldObjects : List (String × Document) → List Fields
  | [] => []
  | (_, d) :: rest => d.objects ++ fieldObjects rest

end

theorem fieldObjects_append (fields more : Fields) :
    fieldObjects (fields ++ more) = fieldObjects fields ++ fieldObjects more := by
  induction fields with
  | nil => rfl
  | cons field rest ih =>
    obtain ⟨key, d⟩ := field
    rw [List.cons_append, fieldObjects, fieldObjects, ih, List.append_assoc]

end Document

/-! ## The object of a node -/

namespace Kind

/-- The tag of an exported node of the kind. -/
def tag : Kind → Tag
  | .identifier => .identifier
  | .literal => .literal
  | .memberExpression => .memberExpression
  | .arrayPattern => .arrayPattern
  | .objectPattern => .objectPattern
  | .assignmentProperty => .property
  | .assignmentPattern => .assignmentPattern
  | .restElement => .restElement

/-- The keys of the fields that an exported node of the kind has for itself. -/
def ownKeys : Kind → List String
  | .identifier => ["name"]
  | .literal => ["value", "raw"]
  | .memberExpression => ["object", "property", "computed"]
  | .arrayPattern => ["elements"]
  | .objectPattern => ["properties"]
  | .assignmentProperty => ["key", "value", "kind", "method", "shorthand", "computed"]
  | .assignmentPattern => ["left", "right"]
  | .restElement => ["argument"]

/-- No kind has a field with one of the keys that all nodes share. -/
theorem nodup_ownKeys (k : Kind) : ("type" :: "location" :: "range" :: k.ownKeys).Nodup := by
  cases k <;> decide

end Kind

namespace Node

variable {r : Role} {settings : Settings}

/-- The fields of an exported node besides its type and its location. -/
def ownFields (settings : Settings) : Node r → Fields
  | .identifier _ b => [("name", .string b.name)]
  | .literal _ b => [("value", b.value.toDocument), ("raw", .string b.raw)]
  | .memberExpression _ b =>
    [("object", expressionDocument settings b.object),
      ("property", expressionDocument settings b.property), ("computed", .bool b.computed)]
  | .arrayPattern _ b => [("elements", .array (elementDocuments settings b.elements))]
  | .objectPattern _ b => [("properties", .array (propertyDocuments settings b.properties))]
  | .assignmentProperty _ b =>
    [("key", expressionDocument settings b.key), ("value", patternDocument settings b.value),
      ("kind", .string "init"), ("method", .bool false), ("shorthand", .bool b.shorthand),
      ("computed", .bool b.computed)]
  | .assignmentPattern _ b =>
    [("left", patternDocument settings b.left), ("right", expressionDocument settings b.right)]
  | .restElement _ b => [("argument", patternDocument settings b.argument)]

@[simp] theorem keys_ownFields (n : Node r) : (n.ownFields settings).keys = n.kind.ownKeys := by
  cases n <;> rfl

/-- Every node is exported as its type, what is shown of its location, and its own fields. -/
theorem toDocument_eq (n : Node r) :
    n.toDocument settings =
      .object (nodeFields settings n.kind.tag.name n.location (n.ownFields settings)) := by
  cases n <;> rfl

theorem fields_toDocument (n : Node r) :
    (n.toDocument settings).fields =
      nodeFields settings n.kind.tag.name n.location (n.ownFields settings) := by
  rw [toDocument_eq]
  rfl

end Node

/-! ## The objects of an exported tree -/

/-- What denotes a literal value is no object and contains none. -/
theorem DenotesValue.objects_eq_nil {d : Document} {v : LiteralValue} (h : DenotesValue d v) :
    d.objects = [] := by
  cases h <;> rfl

namespace Node

variable {settings : Settings}

/-- The object of a single node, and the objects that show its location. -/
def ownObjects (settings : Settings) (m : AnyNode) : List Fields :=
  (m.toDocument settings).fields :: Document.fieldObjects (m.location.toFields settings)

/-- The objects of a node are its own and those of its own fields. -/
theorem objects_toDocument_eq {r : Role} (n : Node r) :
    (n.toDocument settings).objects =
      ownObjects settings n.widen ++ Document.fieldObjects (n.ownFields settings) := by
  have hfields : (n.widen.toDocument settings).fields = (n.toDocument settings).fields := by
    cases n <;> rfl
  have hlocation : n.widen.location = n.location := by
    cases n <;> rfl
  rw [ownObjects, hfields, hlocation, fields_toDocument, toDocument_eq, Document.objects,
    nodeFields, List.cons_append, Document.fieldObjects, Document.fieldObjects_append]
  rfl

theorem objects_childDocument {r : Role} {n : Option (Node r)}
    (ih : ∀ m, n = some m →
      (m.toDocument settings).objects = m.nodes.flatMap (ownObjects settings)) :
    (childDocument settings n).objects = (childNodes n).flatMap (ownObjects settings) := by
  cases n with
  | none => rfl
  | some m => exact ih m rfl

theorem entryObjects_childDocuments {r : Role} {ns : List (Option (Node r))}
    (ih : ∀ m, some m ∈ ns →
      (m.toDocument settings).objects = m.nodes.flatMap (ownObjects settings)) :
    Document.entryObjects (ns.map (childDocument settings)) =
      (ns.flatMap childNodes).flatMap (ownObjects settings) := by
  induction ns with
  | nil => rfl
  | cons n rest ihrest =>
    rw [List.map_cons, Document.entryObjects, List.flatMap_cons, List.flatMap_append,
      objects_childDocument fun m hm => ih m (hm ▸ List.mem_cons_self),
      ihrest fun m hm => ih m (List.mem_cons_of_mem _ hm)]

/-- The objects of an exported tree are those of its nodes, in the order of the nodes. -/
theorem objects_toDocument (settings : Settings) {r : Role} (n : Node r) :
    (n.toDocument settings).objects = n.nodes.flatMap (ownObjects settings) := by
  induction n using treeInduction with
  | identifier h b =>
    rw [objects_toDocument_eq, nodes, List.flatMap_singleton]
    exact List.append_nil _
  | literal h b =>
    have hvalue := (denotesValue_toDocument b.value).objects_eq_nil
    rw [objects_toDocument_eq, nodes, List.flatMap_singleton]
    simp [ownFields, Document.fieldObjects, Document.objects, hvalue]
  | memberExpression h l object property computed ihobject ihproperty =>
    rw [objects_toDocument_eq, nodes, List.flatMap_cons, List.flatMap_append, expressionNodes_eq,
      expressionNodes_eq, ← objects_childDocument ihobject, ← objects_childDocument ihproperty]
    simp [ownFields, expressionDocument_eq, Document.fieldObjects, Document.objects]
  | arrayPattern h l elements ih =>
    rw [objects_toDocument_eq, nodes, List.flatMap_cons, elementNodes_eq,
      ← entryObjects_childDocuments ih]
    simp [ownFields, elementDocuments_eq, Document.fieldObjects, Document.objects]
  | objectPattern h l properties ih =>
    rw [objects_toDocument_eq, nodes, List.flatMap_cons, propertyNodes_eq,
      ← entryObjects_childDocuments (forall_some_mem_map ih)]
    simp [ownFields, propertyDocuments_eq, Document.fieldObjects, Document.objects]
  | assignmentProperty h l key value shorthand computed ihkey ihvalue =>
    rw [objects_toDocument_eq, nodes, List.flatMap_cons, List.flatMap_append, expressionNodes_eq,
      patternNodes_eq, ← objects_childDocument ihkey, ← objects_childDocument ihvalue]
    simp [ownFields, expressionDocument_eq, patternDocument_eq, Document.fieldObjects,
      Document.objects]
  | assignmentPattern h l left right ihleft ihright =>
    rw [objects_toDocument_eq, nodes, List.flatMap_cons, List.flatMap_append, patternNodes_eq,
      expressionNodes_eq, ← objects_childDocument ihleft, ← objects_childDocument ihright]
    simp [ownFields, expressionDocument_eq, patternDocument_eq, Document.fieldObjects]
  | restElement h l argument ih =>
    rw [objects_toDocument_eq, nodes, List.flatMap_cons, patternNodes_eq,
      ← objects_childDocument ih]
    simp [ownFields, patternDocument_eq, Document.fieldObjects]

end Node

/-! ## Objects that show a location -/

namespace Location

variable {settings : Settings} {l : Location} {fields : Fields}

/-- The fields that show the range of a location. -/
def rangeFields (settings : Settings) (l : Location) : Fields :=
  match settings.ranges, l.range? with
  | true, some (s, e) => [("range", .array [.ofNat s.toNat, .ofNat e.toNat])]
  | _, _ => []

theorem toFields_eq (settings : Settings) (l : Location) :
    l.toFields settings =
      (if settings.locations then [("location", l.toDocument)] else []) ++ l.rangeFields settings :=
  rfl

/-- A range contains no objects, so they are those of the location. -/
theorem fieldObjects_toFields (settings : Settings) (l : Location) :
    Document.fieldObjects (l.toFields settings) =
      if settings.locations then l.toDocument.objects else [] := by
  have hrange : Document.fieldObjects (l.rangeFields settings) = [] := by
    rw [rangeFields]
    split <;> rfl
  rw [toFields_eq, Document.fieldObjects_append, hrange, List.append_nil]
  split
  · exact List.append_nil _
  · rfl

/-- An end is shown by an object with its three numbers. -/
theorem keys_of_mem_position {p : Option Position}
    (h : fields ∈ (Document.ofOption (p.map (·.toDocument))).objects) :
    fields.keys = ["line", "column", "offset"] := by
  cases p with
  | none => cases h
  | some p =>
    obtain rfl := List.mem_singleton.mp h
    rfl

/-- A location is shown by an object with its two ends, and by those of the ends. -/
theorem keys_of_mem_fieldObjects (h : fields ∈ Document.fieldObjects (l.toFields settings)) :
    fields.keys = ["start", "end"] ∨ fields.keys = ["line", "column", "offset"] := by
  rw [fieldObjects_toFields] at h
  split at h
  · rcases List.mem_cons.mp h with rfl | h
    · exact .inl rfl
    · rcases List.mem_append.mp h with h | h
      · exact .inr (keys_of_mem_position h)
      · rcases List.mem_append.mp h with h | h
        · exact .inr (keys_of_mem_position h)
        · cases h
  · cases h

theorem keys_nodup_of_mem_fieldObjects (h : fields ∈ Document.fieldObjects (l.toFields settings)) :
    fields.keys.Nodup := by
  rcases keys_of_mem_fieldObjects h with hkeys | hkeys
  · rw [hkeys]
    decide
  · rw [hkeys]
    decide

theorem keys_toFields_sublist (settings : Settings) (l : Location) :
    List.Sublist (l.toFields settings).keys ["location", "range"] := by
  have hlocation : List.Sublist (Fields.keys
      (if settings.locations then [("location", l.toDocument)] else [])) ["location"] := by
    split
    · exact List.Sublist.refl _
    · exact List.nil_sublist _
  have hrange : List.Sublist (l.rangeFields settings).keys ["range"] := by
    rw [rangeFields]
    split
    · exact List.Sublist.refl _
    · exact List.nil_sublist _
  rw [toFields_eq, Fields.keys, List.map_append]
  exact hlocation.append hrange

end Location

/-! ## Every key once -/

/-- The keys of the object of a node are those that all nodes share, as far as they are shown, and
those of its own fields. -/
theorem keys_nodeFields_nodup {settings : Settings} {type : String} {l : Location} {own : Fields}
    (h : ("type" :: "location" :: "range" :: own.keys).Nodup) :
    (nodeFields settings type l own).keys.Nodup := by
  have hkeys : (nodeFields settings type l own).keys =
      "type" :: ((l.toFields settings).keys ++ own.keys) := by
    rw [nodeFields, Fields.keys, List.map_append]
    rfl
  rw [hkeys]
  refine h.sublist (.cons_cons _ ?_)
  exact (Location.keys_toFields_sublist settings l).append (.refl own.keys)

namespace Node

/-- No object of an exported tree has a key twice. -/
theorem keys_nodup_of_mem_objects {settings : Settings} {r : Role} {n : Node r} {fields : Fields}
    (h : fields ∈ (n.toDocument settings).objects) : fields.keys.Nodup := by
  rw [objects_toDocument, List.mem_flatMap] at h
  obtain ⟨m, -, h⟩ := h
  rcases List.mem_cons.mp h with rfl | h
  · rw [fields_toDocument]
    refine keys_nodeFields_nodup ?_
    rw [keys_ownFields]
    exact m.kind.nodup_ownKeys
  · exact Location.keys_nodup_of_mem_fieldObjects h

end Node

end PatternTree
