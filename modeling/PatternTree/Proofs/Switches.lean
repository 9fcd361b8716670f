import PatternTree.Proofs.Objects

/-!
# Turning a setting off

A switch of the settings governs one key. To turn it off is the same as to leave it on and strike
the key out of the document afterwards, in every object at every depth. So the settings reach every
node, nothing but the two keys depends on them, and neither key is used for anything else.

`Document.without` strikes a key out. It goes through lists field by field (`withoutFields_append`),
so a node is treated part by part: its type stays, of its location the field of the switch goes
(`Location.withoutFields_toFields`), and its own fields are those of its children, struck out in
turn.
-/

namespace PatternTree

/-! ## Striking out a key -/

namespace Document

mutual

/-- The document without a key, in every object that it contains. -/
def without (key : String) : Document → Document
  | .array entries => .array (withoutEntries key entries)
  | .object fields => .object (withoutFields key fields)
  | .null => .null
  | .bool b => .bool b
  | .number n => .number n
  | .string s => .string s

/-- `without` on the entries of an array. -/
def withoutEntries (key : String) : List Document → List Document
  | [] => []
  | d :: rest => d.without key :: withoutEntries key rest

/-- `without` on the fields of an object, the fields with the key left out. -/
def withoutFields (key : String) : List (String × Document) → List (String × Document)
  | [] => []
  | (k, d) :: rest =>
    if k = key then withoutFields key rest else (k, d.without key) :: withoutFields key rest

end

variable {key : String}

theorem withoutFields_append (fields more : Fields) :
    withoutFields key (fields ++ more) = withoutFields key fields ++ withoutFields key more := by
  induction fields with
  | nil => rfl
  | cons field rest ih =>
    obtain ⟨k, d⟩ := field
    rw [List.cons_append, withoutFields, withoutFields, ih]
    split <;> rfl

/-- An object that does not have the key keeps all its fields. -/
theorem withoutFields_of_not_mem {fields : Fields} (h : key ∉ fields.keys) :
    withoutFields key fields = fields.map fun field => (field.1, field.2.without key) := by
  induction fields with
  | nil => rfl
  | cons field rest ih =>
    obtain ⟨k, d⟩ := field
    rw [Fields.keys, List.map_cons, List.mem_cons, not_or] at h
    rw [withoutFields, if_neg (Ne.symm h.1), ih h.2]
    rfl

end Document

/-- What denotes a literal value has no key to strike out. -/
theorem DenotesValue.without_eq_self {d : Document} {v : LiteralValue} (h : DenotesValue d v)
    (key : String) : d.without key = d := by
  cases h <;> rfl

/-! ## The key of a switch -/

namespace Switch

/-- The key that a switch governs. -/
def key : Switch → String
  | .locations => "location"
  | .ranges => "range"

end Switch

namespace Location

/-- Neither key is used inside a location. -/
theorem without_toDocument (w : Switch) (l : Location) :
    l.toDocument.without w.key = l.toDocument := by
  have hends : w.key ∉ ["start", "end"] := by
    cases w <;> decide
  have hnumbers : w.key ∉ ["line", "column", "offset"] := by
    cases w <;> decide
  have hposition (p : Option Position) : (Document.ofOption (p.map (·.toDocument))).without w.key =
      Document.ofOption (p.map (·.toDocument)) := by
    cases p with
    | none => rfl
    | some p => exact congrArg Document.object (Document.withoutFields_of_not_mem hnumbers)
  rw [toDocument, Document.without, Document.withoutFields_of_not_mem hends]
  simp only [List.map_cons, List.map_nil, hposition]

/-- The field of the switch goes, and all else that is shown of a location stays. -/
theorem withoutFields_toFields (w : Switch) (settings : Settings) (l : Location) :
    Document.withoutFields w.key (l.toFields (settings.set w true)) =
      l.toFields (settings.set w false) := by
  rw [toFields_eq, toFields_eq, Document.withoutFields_append]
  cases w with
  | locations =>
    have hrange :
        Document.withoutFields "location" (l.rangeFields settings) = l.rangeFields settings := by
      rw [rangeFields]
      split <;> rfl
    exact hrange
  | ranges =>
    have hrange : Document.withoutFields Switch.ranges.key
        (l.rangeFields (settings.set .ranges true)) = [] := by
      rw [rangeFields]
      split <;> rfl
    rw [hrange]
    obtain ⟨locations, ranges⟩ := settings
    cases locations with
    | true => exact congrArg (fun d => [("location", d)]) (l.without_toDocument .ranges)
    | false => rfl

end Location

/-- A node is struck out part by part. -/
theorem without_nodeObject (w : Switch) (settings : Settings) (type : String) (l : Location)
    (own : Fields) :
    (nodeObject (settings.set w true) type l own).without w.key =
      nodeObject (settings.set w false) type l (Document.withoutFields w.key own) := by
  have htype : "type" ≠ w.key := by
    cases w <;> decide
  rw [nodeObject, nodeObject, Document.without, List.cons_append, Document.withoutFields,
    if_neg htype, Document.withoutFields_append, Location.withoutFields_toFields]
  rfl

/-! ## Trees -/

namespace Node

variable {w : Switch} {settings : Settings}

theorem without_childDocument {r : Role} {n : Option (Node r)}
    (ih : ∀ m, n = some m →
      (m.toDocument (settings.set w true)).without w.key = m.toDocument (settings.set w false)) :
    (childDocument (settings.set w true) n).without w.key =
      childDocument (settings.set w false) n := by
  cases n with
  | none => rfl
  | some m => exact ih m rfl

theorem withoutEntries_childDocuments {r : Role} {ns : List (Option (Node r))}
    (ih : ∀ m, some m ∈ ns →
      (m.toDocument (settings.set w true)).without w.key = m.toDocument (settings.set w false)) :
    Document.withoutEntries w.key (ns.map (childDocument (settings.set w true))) =
      ns.map (childDocument (settings.set w false)) := by
  induction ns with
  | nil => rfl
  | cons n rest ihrest =>
    rw [List.map_cons, Document.withoutEntries, List.map_cons,
      without_childDocument fun m hm => ih m (hm ▸ List.mem_cons_self),
      ihrest fun m hm => ih m (List.mem_cons_of_mem _ hm)]

/-- A node loses nothing but the field of the switch, if its own fields come out right. None of
these has the key, so they are looked at value by value. -/
theorem without_toDocument_of_ownFields {r : Role} {n : Node r}
    (h : (n.ownFields (settings.set w true)).map (fun field => (field.1, field.2.without w.key)) =
      n.ownFields (settings.set w false)) :
    (n.toDocument (settings.set w true)).without w.key = n.toDocument (settings.set w false) := by
  have hkeys : w.key ∉ (n.ownFields (settings.set w true)).keys := by
    rw [keys_ownFields]
    cases w <;> cases n.kind <;> decide
  rw [toDocument_eq, toDocument_eq, ← nodeObject_eq, ← nodeObject_eq, without_nodeObject,
    Document.withoutFields_of_not_mem hkeys, h]

/-- Exporting with a switch off is exporting with it on and striking out its key. -/
theorem without_toDocument (w : Switch) (settings : Settings) {r : Role} (n : Node r) :
    (n.toDocument (settings.set w true)).without w.key = n.toDocument (settings.set w false) := by
  induction n using treeInduction with
  | identifier h b => exact without_toDocument_of_ownFields rfl
  | literal h b =>
    have hvalue := (denotesValue_toDocument b.value).without_eq_self w.key
    refine without_toDocument_of_ownFields ?_
    simp only [ownFields, List.map_cons, List.map_nil, hvalue, Document.without]
  | memberExpression h l object property computed ihobject ihproperty =>
    refine without_toDocument_of_ownFields ?_
    simp only [ownFields, expressionDocument_eq, List.map_cons, List.map_nil,
      without_childDocument ihobject, without_childDocument ihproperty, Document.without]
  | arrayPattern h l elements ih =>
    refine without_toDocument_of_ownFields ?_
    simp only [ownFields, elementDocuments_eq, List.map_cons, List.map_nil, Document.without,
      withoutEntries_childDocuments ih]
  | objectPattern h l properties ih =>
    refine without_toDocument_of_ownFields ?_
    simp only [ownFields, propertyDocuments_eq, List.map_cons, List.map_nil, Document.without,
      withoutEntries_childDocuments (forall_some_mem_map ih)]
  | assignmentProperty h l key value shorthand computed ihkey ihvalue =>
    refine without_toDocument_of_ownFields ?_
    simp only [ownFields, expressionDocument_eq, patternDocument_eq, List.map_cons, List.map_nil,
      without_childDocument ihkey, without_childDocument ihvalue, Document.without]
  | assignmentPattern h l left right ihleft ihright =>
    refine without_toDocument_of_ownFields ?_
    simp only [ownFields, expressionDocument_eq, patternDocument_eq, List.map_cons, List.map_nil,
      without_childDocument ihleft, without_childDocument ihright]
  | restElement h l argument ih =>
    refine without_toDocument_of_ownFields ?_
    simp only [ownFields, patternDocument_eq, List.map_cons, List.map_nil,
      without_childDocument ih]

end Node

/-! ## Tokens -/

namespace Token

variable {settings : Settings} {t : Token}

theorem without_toDocument (w : Switch) (settings : Settings) (t : Token) :
    (t.toDocument (settings.set w true)).without w.key = t.toDocument (settings.set w false) := by
  have hkeys : w.key ∉ ["type", "value"] := by
    cases w <;> decide
  have hown := Document.withoutFields_of_not_mem
    (show w.key ∉ Fields.keys [("type", .string t.type.name), ("value", .string t.value)]
      from hkeys)
  rw [toDocument, toDocument, Document.without]
  refine congrArg Document.object ?_
  change Document.withoutFields w.key ([_, _] ++ t.location.toFields _) = [_, _] ++ _
  rw [Document.withoutFields_append, Location.withoutFields_toFields, hown]
  rfl

/-- No object of an exported token has a key twice. -/
theorem keys_nodup_of_mem_objects {fields : Fields} (h : fields ∈ (t.toDocument settings).objects) :
    fields.keys.Nodup := by
  rcases List.mem_cons.mp h with rfl | h
  · have hkeys : List.Sublist ("type" :: "value" :: (t.location.toFields settings).keys)
        ["type", "value", "location", "range"] :=
      .cons_cons _ (.cons_cons _ (Location.keys_toFields_sublist settings t.location))
    exact List.Nodup.sublist hkeys (by decide)
  · exact Location.keys_nodup_of_mem_fieldObjects h

end Token

/-! ## Switches -/

namespace Switch

/-- **A switch is a key.** With a switch off a tree, or a token, has the document that it has with
the switch on, but for the key of the switch, which is struck out of every object. Under no settings
does an object have a key twice, so no field of a node or token is hidden by its type, its location
or its range, and hides none of these. -/
theorem off_eq_without (w : Switch) (settings : Settings) :
    (∀ n : AnyNode,
        n.toDocument (settings.set w false) = (n.toDocument (settings.set w true)).without w.key) ∧
      (∀ t : Token,
        t.toDocument (settings.set w false) = (t.toDocument (settings.set w true)).without w.key) ∧
      (∀ n : AnyNode, ∀ fields ∈ (n.toDocument settings).objects, fields.keys.Nodup) ∧
      ∀ t : Token, ∀ fields ∈ (t.toDocument settings).objects, fields.keys.Nodup := by
  refine ⟨?_, ?_, ?_, ?_⟩
  · intro n
    exact (n.without_toDocument w settings).symm
  · intro t
    exact (t.without_toDocument w settings).symm
  · intro n fields hfields
    exact Node.keys_nodup_of_mem_objects hfields
  · intro t fields hfields
    exact Token.keys_nodup_of_mem_objects hfields

end Switch

end PatternTree
