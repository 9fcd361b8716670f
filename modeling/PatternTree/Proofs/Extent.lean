import PatternTree.Proofs.Objects

/-!
# Locations and ranges of an exported tree

With both settings on, the extent of a node is shown twice: by its location, a pair of positions,
and by its range, a pair of offsets. The two are written by different rules, since an end that is
unset is null in a location and leaves the whole range out.

* `RangeAgrees` says of the fields of an object that its range is that of its location.
* The objects with a type are those of the nodes, one for each and in their order
  (`Node.typedObjects_toDocument`), and all of them agree with themselves and with their node.
-/

namespace PatternTree

/-- The objects inside a document that have a type. -/
def Document.typedObjects (d : Document) : List Fields :=
  d.objects.filter fun fields => (Fields.value? "type" fields).isSome

/-- The location of an object is an object with two ends and nothing else; there is a range exactly
when neither end is null, and then it consists of their offsets. -/
def RangeAgrees (fields : Fields) : Prop :=
  ∃ start stop, Fields.value? "location" fields = some (.object [("start", start), ("end", stop)]) ∧
    (Fields.value? "range" fields ≠ none ↔ start ≠ .null ∧ stop ≠ .null) ∧
    ∀ range, Fields.value? "range" fields = some range → ∃ s e,
      start.child? ⟨"offset", none⟩ = some s ∧ stop.child? ⟨"offset", none⟩ = some e ∧
        range = .array [s, e]

/-! ## The object of a node -/

section

variable {type : String} {l : Location} {own : Fields}

theorem value?_location_nodeFields (h : Fields.value? "location" own = none) :
    Fields.value? "location" (nodeFields ⟨true, true⟩ type l own) = some l.toDocument := by
  rw [nodeFields, List.cons_append, Fields.value?_cons, if_neg (by decide), Fields.value?_append,
    Location.value?_location_toFields, h]
  rfl

theorem value?_range_nodeFields (h : Fields.value? "range" own = none) :
    Fields.value? "range" (nodeFields ⟨true, true⟩ type l own) =
      l.range?.map fun (s, e) => .array [.ofNat s.toNat, .ofNat e.toNat] := by
  rw [nodeFields, List.cons_append, Fields.value?_cons, if_neg (by decide), Fields.value?_append, h,
    Option.or_none, Location.toFields_eq, Location.rangeFields]
  cases l.range? with
  | none => rfl
  | some ends => rfl

/-- The range is computed from the ends that the location shows. -/
theorem rangeAgrees_nodeFields (hlocation : Fields.value? "location" own = none)
    (hrange : Fields.value? "range" own = none) :
    RangeAgrees (nodeFields ⟨true, true⟩ type l own) := by
  obtain ⟨start, stop⟩ := l
  refine ⟨_, _, value?_location_nodeFields hlocation, ?_⟩
  rw [value?_range_nodeFields hrange]
  cases start with
  | none => simp [Location.range?, Document.ofOption]
  | some p =>
    cases stop with
    | none => simp [Location.range?, Document.ofOption]
    | some q =>
      refine ⟨?_, ?_⟩
      · simp [Location.range?, Document.ofOption, Position.toDocument]
      · intro range h
        obtain rfl := Option.some.inj h
        exact ⟨_, _, rfl, rfl, rfl⟩

end

/-! ## All nodes -/

namespace Node

/-- No field of a node's own hides its location or its range. -/
theorem value?_ownFields_eq_none {r : Role} (settings : Settings) (n : Node r) {key : String}
    (h : key ∈ ["type", "location", "range"]) :
    Fields.value? key (n.ownFields settings) = none := by
  rw [Fields.value?_eq_none_iff, keys_ownFields]
  intro hown
  have hnodup : (["type", "location", "range"] ++ n.kind.ownKeys).Nodup := n.kind.nodup_ownKeys
  have hdisjoint := List.nodup_append.mp hnodup
  exact hdisjoint.2.2 key h key hown rfl

/-- The objects of a location have no type. -/
theorem typed_ownObjects (settings : Settings) (m : AnyNode) :
    (ownObjects settings m).filter (fun fields => (Fields.value? "type" fields).isSome) =
      [(m.toDocument settings).fields] := by
  have huntyped : ∀ fields ∈ Document.fieldObjects (m.location.toFields settings),
      Fields.value? "type" fields = none := by
    intro fields hfields
    rw [Fields.value?_eq_none_iff]
    rcases Location.keys_of_mem_fieldObjects hfields with hkeys | hkeys
    · rw [hkeys]
      decide
    · rw [hkeys]
      decide
  have hnone : (Document.fieldObjects (m.location.toFields settings)).filter
      (fun fields => (Fields.value? "type" fields).isSome) = [] := by
    refine List.filter_eq_nil_iff.mpr fun fields hfields => ?_
    simp [huntyped fields hfields]
  rw [ownObjects, List.filter_cons, hnone, fields_toDocument]
  rfl

/-- The objects with a type are those of the nodes, in the order of the nodes. -/
theorem typedObjects_toDocument (settings : Settings) {r : Role} (n : Node r) :
    (n.toDocument settings).typedObjects = n.nodes.map fun m => (m.toDocument settings).fields := by
  rw [Document.typedObjects, objects_toDocument, List.filter_flatMap]
  simp only [typed_ownObjects]
  exact List.map_eq_flatMap.symm

/-- **Ranges agree with locations.** In a document that shows both, at every depth, the range of an
object with a type is that of its location, whether the ends are set or not and in whatever order
they are. These objects are the documents of the nodes of the tree, one after the other, and show
their locations. -/
theorem typedObjects_agree (n : AnyNode) :
    (∀ fields ∈ (n.toDocument ⟨true, true⟩).typedObjects, RangeAgrees fields) ∧
      (n.toDocument ⟨true, true⟩).typedObjects.map Document.object =
        n.nodes.map (toDocument ⟨true, true⟩) ∧
      ∀ m ∈ n.nodes, DenotesLocation
        (Fields.value? "location" (m.toDocument ⟨true, true⟩).fields) m.location := by
  rw [typedObjects_toDocument]
  refine ⟨?_, ?_, ?_⟩
  · intro fields hfields
    obtain ⟨m, -, rfl⟩ := List.mem_map.mp hfields
    rw [fields_toDocument]
    exact rangeAgrees_nodeFields (m.value?_ownFields_eq_none _ (by decide))
      (m.value?_ownFields_eq_none _ (by decide))
  · rw [List.map_map]
    refine List.map_congr_left fun m _ => ?_
    rw [Function.comp_apply, fields_toDocument, ← toDocument_eq]
  · intro m _
    rw [fields_toDocument, value?_location_nodeFields (m.value?_ownFields_eq_none _ (by decide))]
    exact denotesLocation_toDocument m.location

end Node

end PatternTree
