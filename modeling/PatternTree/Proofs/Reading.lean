import PatternTree.Import.Node
import PatternTree.Proofs.Sequence

/-!
# Reading a node, field by field

`Node.read` is a recursion over the whole document. Here it is put into the form in which every
proof about it is stated: an object is read by its tag, `Node.readTagged`, out of what its keys look
up, and the recursion is met only in `Node.readOptional`, on the value of a single child.

* `Node.readSlot` reads the child of a field and checks it for its place; `Node.readList` looks up
  the list of children of a field, whose entries are read one by one (`Node.readEntries_eq`).
* `Node.read_object` is the equation of the two forms.
* A `Collection` is one of the two lists of children, with all that tells them apart; the patterns
  that hold them have one reader (`Node.readTagged_collection`).
-/

namespace PatternTree

/-! ## Tags -/

section

variable {α : Type} {name : α → String} {all : List α} {s : String}

/-- Looking up a name in a table finds what has that name, if each one is found under its own. -/
theorem find?_name_eq_some_iff {a : α} (h : all.find? (name · == name a) = some a) :
    all.find? (name · == s) = some a ↔ name a = s := by
  refine ⟨?_, ?_⟩
  · intro hfind
    have hname := List.find?_some hfind
    exact eq_of_beq hname
  · rintro rfl
    exact h

/-- It finds nothing if nothing has that name, the table being complete. -/
theorem find?_name_eq_none_iff (h : ∀ a, a ∈ all) :
    all.find? (name · == s) = none ↔ ∀ a, name a ≠ s := by
  rw [List.find?_eq_none]
  refine ⟨?_, ?_⟩
  · intro hnone a ha
    exact hnone a (h a) (beq_iff_eq.mpr ha)
  · intro hne a _ ha
    exact hne a (eq_of_beq ha)

end

/-- The kind of node that a tag names. -/
def Tag.kind : Tag → Kind
  | .identifier => .identifier
  | .literal => .literal
  | .memberExpression => .memberExpression
  | .arrayPattern => .arrayPattern
  | .objectPattern => .objectPattern
  | .property => .assignmentProperty
  | .assignmentProperty => .assignmentProperty
  | .assignmentPattern => .assignmentPattern
  | .restElement => .restElement

/-- The type of an object is a tag. -/
def Tagged (fields : Fields) (t : Tag) : Prop :=
  Fields.value? "type" fields = some (.string t.name)

namespace Tag

theorem mem_all (t : Tag) : t ∈ all := by
  cases t <;> decide

theorem ofName?_eq_some_iff {s : String} {t : Tag} : ofName? s = some t ↔ t.name = s :=
  find?_name_eq_some_iff (ofName?_name t)

theorem ofName?_eq_none_iff {s : String} : ofName? s = none ↔ ∀ t : Tag, t.name ≠ s :=
  find?_name_eq_none_iff mem_all

end Tag

/-! ## Children -/

namespace Node

/-- The child that an optional value denotes in a place; missing or null it is absent. -/
def readOptional (place : Place) : Option Document → Traced (Option AnyNode)
  | none => pure none
  | some .null => pure none
  | some d => do
    let n ← read place d
    pure (some n)

/-- The child in a field, checked for its place. -/
def readSlot (c : Capability) (field : String) (fields : Fields) :
    Traced (Option (Node (.only c))) := do
  let n ← readOptional ⟨field, none⟩ (Fields.value? field fields)
  requireOptional c field n

/-- The unchecked children of the list in a field. -/
def readList (owner field : String) (fields : Fields) : Traced (List (Option AnyNode)) :=
  match Fields.value? field fields with
  | some (.array entries) => readEntries field 0 entries
  | some _ => do
    let l ← readLocation owner fields
    Traced.fail (.notAnArray field) l
  | none => do
    let l ← readLocation owner fields
    Traced.fail (.missingField owner field) l

/-- A value that is not null is read as a node. -/
theorem readOptional_some (place : Place) {d : Document} (h : d ≠ .null) :
    readOptional place (some d) = (do
      let n ← read place d
      pure (some n)) := by
  cases d with
  | null => exact absurd rfl h
  | _ => rfl

/-- A value that is read as no child is null. -/
theorem readOptional_ok_none {place : Place} {d : Document}
    (h : (readOptional place (some d)).outcome = .ok none) : d = .null := by
  by_cases hd : d = .null
  · exact hd
  · rw [readOptional_some place hd, Traced.bind_ok_iff] at h
    obtain ⟨n, -, h⟩ := h
    cases h

theorem readChild_eq (field : String) (fields : Fields) :
    readChild field fields = readOptional ⟨field, none⟩ (Fields.value? field fields) := by
  induction fields with
  | nil => rfl
  | cons f rest ih =>
    obtain ⟨key, d⟩ := f
    by_cases h : key = field
    · cases d <;> simp [readChild, readOptional, h]
    · cases d <;> simp [readChild, h, ih]

theorem readChildren_eq (owner field : String) (fields : Fields) :
    readChildren owner field fields fields = readList owner field fields := by
  -- the object as a whole is only needed for its location, so its fields can be run through alone
  suffices h : ∀ rest : Fields, readChildren owner field fields rest =
      match Fields.value? field rest with
      | some (.array entries) => readEntries field 0 entries
      | some _ => do
        let l ← readLocation owner fields
        Traced.fail (.notAnArray field) l
      | none => do
        let l ← readLocation owner fields
        Traced.fail (.missingField owner field) l from h fields
  intro rest
  induction rest with
  | nil => rfl
  | cons f rest ih =>
    obtain ⟨key, d⟩ := f
    by_cases h : key = field
    · cases d <;> simp [readChildren, h]
    · cases d <;> simp [readChildren, h, ih]

/-- The entries of a list are read one by one, each in its own place. -/
theorem readEntries_eq (field : String) (index : Nat) (ds : List Document) :
    readEntries field index ds =
      Traced.forEach (fun i d => readOptional ⟨field, some i⟩ (some d)) index ds := by
  induction ds generalizing index with
  | nil => rfl
  | cons d rest ih => cases d <;> simp [readEntries, readOptional, Traced.forEach, ih]

/-- The list of a field that holds one is the list of its entries. -/
theorem readList_of_listed (owner : String) {field : String} {fields : Fields} {ds : List Document}
    (listed : Fields.value? field fields = some (.array ds)) :
    readList owner field fields = readEntries field 0 ds := by
  rw [readList, listed]

/-- A list of children is read when there is one and its entries are. -/
theorem readList_ok_iff {owner field : String} {fields : Fields} {ns : List (Option AnyNode)} :
    (readList owner field fields).outcome = .ok ns ↔
      ∃ ds, Fields.value? field fields = some (.array ds) ∧
        (readEntries field 0 ds).outcome = .ok ns := by
  rw [readList]
  cases Fields.value? field fields with
  | none => simp [Traced.bind_ok_iff]
  | some d => cases d <;> simp [Traced.bind_ok_iff]

/-! ## Objects -/

/-- The node of an object with a known tag. -/
def readTagged (fields : Fields) : Tag → Traced AnyNode
  | .identifier => do
    let l ← readLocation "Identifier" fields
    let name ← readString "Identifier" "name" fields l
    let location ← readLocation "Identifier" fields
    pure (.identifier (Role.any_admits _) { location, name })
  | .literal => do
    let l ← readLocation "Literal" fields
    let value ← readLiteralValue fields l
    let raw ← readString "Literal" "raw" fields l
    let location ← readLocation "Literal" fields
    pure (.literal (Role.any_admits _) { location, value, raw })
  | .memberExpression => do
    let object ← readSlot .expression "object" fields
    let property ← readSlot .expression "property" fields
    let computed ← readFlag "MemberExpression" "computed" fields
    let location ← readLocation "MemberExpression" fields
    pure (.memberExpression (Role.any_admits _) { location, object, property, computed })
  | .arrayPattern => do
    let entries ← readList "ArrayPattern" "elements" fields
    let elements ← requireEntries .pattern "elements" entries true
    let location ← readLocation "ArrayPattern" fields
    pure (.arrayPattern (Role.any_admits _) { location, elements })
  | .objectPattern => do
    let entries ← readList "ObjectPattern" "properties" fields
    let properties ← requireList .patternProperty "properties" entries
    let location ← readLocation "ObjectPattern" fields
    pure (.objectPattern (Role.any_admits _) { location, properties })
  | .property | .assignmentProperty => do
    refuseAccessor fields
    refuseMethod fields
    let key ← readSlot .expression "key" fields
    let value ← readSlot .pattern "value" fields
    let shorthand ← readFlag "Property" "shorthand" fields
    let computed ← readFlag "Property" "computed" fields
    let location ← readLocation "Property" fields
    pure (.assignmentProperty (Role.any_admits _) { location, key, value, shorthand, computed })
  | .assignmentPattern => do
    let left ← readSlot .pattern "left" fields
    let right ← readSlot .expression "right" fields
    let location ← readLocation "AssignmentPattern" fields
    pure (.assignmentPattern (Role.any_admits _) { location, left, right })
  | .restElement => do
    let argument ← readSlot .pattern "argument" fields
    let location ← readLocation "RestElement" fields
    pure (.restElement (Role.any_admits _) { location, argument })

/-- An object is reported and read by its tag, if it has one. -/
theorem read_object (place : Place) (fields : Fields) :
    read place (.object fields) =
      match Fields.value? "type" fields with
      | some (.string tag) => do
        Traced.report [.readingNode tag place.field]
        match Tag.ofName? tag with
        | some t => readTagged fields t
        | none => do
          let l ← readLocation "node" fields
          Traced.fail (.unknownNodeType tag) l
      | _ => Traced.fail (.notANode place) := by
  rw [read]
  cases Fields.value? "type" fields with
  | none => rfl
  | some type =>
    cases type with
    | string tag =>
      dsimp only
      cases Tag.ofName? tag with
      | none => rfl
      | some t =>
        -- the two forms differ only in how they look up the children
        cases t <;> simp [readTagged, readSlot, readChild_eq, readChildren_eq]
    | _ => rfl

/-- A tagged object ends as the reader of its tag does. -/
theorem outcome_read_tagged (place : Place) {fields : Fields} {t : Tag} (tagged : Tagged fields t) :
    (read place (.object fields)).outcome = (readTagged fields t).outcome := by
  rw [read_object, tagged]
  simp

/-- A document is a tree only as a tagged object. -/
theorem read_ok_iff_tagged {place : Place} {d : Document} {n : AnyNode} :
    (read place d).outcome = .ok n ↔ ∃ fields t, d = .object fields ∧ Tagged fields t ∧
      (readTagged fields t).outcome = .ok n := by
  refine ⟨?_, ?_⟩
  · intro h
    cases d with
    | object fields =>
      rw [read_object] at h
      split at h
      · next tag htag =>
        rw [Traced.outcome_report_bind] at h
        split at h
        · next t ht =>
          rw [← Tag.ofName?_eq_some_iff.mp ht] at htag
          exact ⟨fields, t, rfl, htag, h⟩
        · simp [Traced.bind_ok_iff] at h
      · cases h
    | _ => cases h
  · rintro ⟨fields, t, rfl, tagged, h⟩
    rw [outcome_read_tagged place tagged]
    exact h

/-- A document is refused because it is no node, because its type is no tag, or by the reader of its
tag. -/
theorem read_error_cases {place : Place} {d : Document} {e : Fault}
    (h : (read place d).outcome = .error e) :
    ((∀ fields tag, d = .object fields → Fields.value? "type" fields ≠ some (.string tag)) ∧
        e = ⟨.notANode place, .unset⟩) ∨
      (∃ fields tag, d = .object fields ∧ Fields.value? "type" fields = some (.string tag) ∧
        (∀ t : Tag, t.name ≠ tag) ∧
        ((readLocation "node" fields).outcome = .error e ∨
          ∃ l, (readLocation "node" fields).outcome = .ok l ∧ e = ⟨.unknownNodeType tag, l⟩)) ∨
      ∃ fields t, d = .object fields ∧ Tagged fields t ∧
        (readTagged fields t).outcome = .error e := by
  cases d with
  | object fields =>
    rw [read_object] at h
    split at h
    · next tag htag =>
      rw [Traced.outcome_report_bind] at h
      split at h
      · next t ht =>
        rw [← Tag.ofName?_eq_some_iff.mp ht] at htag
        exact .inr (.inr ⟨fields, t, rfl, htag, h⟩)
      · next ht =>
        rw [Traced.bind_error_iff] at h
        refine .inr (.inl ⟨fields, tag, rfl, htag, Tag.ofName?_eq_none_iff.mp ht, ?_⟩)
        rcases h with h | ⟨l, hl, h⟩
        · exact .inl h
        · cases h
          exact .inr ⟨l, hl, rfl⟩
    · next hno =>
      cases h
      refine .inl ⟨?_, rfl⟩
      rintro _ tag ⟨⟩ htag
      exact hno tag htag
  | _ =>
    cases h
    refine .inl ⟨?_, rfl⟩
    rintro _ _ ⟨⟩

end Node

/-! ## The two lists of children -/

/-- A list of children in a node. -/
inductive Collection where
  /-- the elements of an array pattern -/
  | elements
  /-- the entries of an object pattern -/
  | properties

namespace Collection

/-- The tag of the object that holds the list. -/
def tag : Collection → Tag
  | .elements => .arrayPattern
  | .properties => .objectPattern

/-- The field of the list. -/
def field : Collection → String
  | .elements => "elements"
  | .properties => "properties"

/-- What the list asks of its entries. -/
def capability : Collection → Capability
  | .elements => .pattern
  | .properties => .patternProperty

/-- Whether an entry may be null. -/
def allowAbsent : Collection → Bool
  | .elements => true
  | .properties => false

/-- The node that holds the list. -/
def node : (k : Collection) → Location → List (Option (Node (.only k.capability))) → AnyNode
  | .elements, l, ms => .arrayPattern (Role.any_admits _) ⟨l, ms⟩
  | .properties, l, ms => .objectPattern (Role.any_admits _) ⟨l, ms.filterMap id⟩

end Collection

namespace Node

/-- Both patterns with a list are read alike: the list, its check, the location. -/
theorem readTagged_collection (k : Collection) (fields : Fields) :
    readTagged fields k.tag = (do
      let ns ← readList k.tag.owner k.field fields
      let ms ← requireEntries k.capability k.field ns k.allowAbsent
      let l ← readLocation k.tag.owner fields
      pure (k.node l ms)) := by
  cases k with
  | elements => rfl
  | properties =>
    change readTagged fields .objectPattern = _
    simp only [readTagged, requireList, bind_assoc, pure_bind]
    rfl

end Node

end PatternTree
