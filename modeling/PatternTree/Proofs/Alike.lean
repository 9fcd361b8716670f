import PatternTree.Proofs.Reading

/-!
# Documents that are read alike

The reader looks at some keys of an object and not at others, and for some keys a missing value
stands for a default. Documents that differ in nothing else are **alike**, and they are read with
the same outcome, whether that is a tree or a fault.

* A `View` is a way of looking at a value, and `View.reads` lists the keys that it leads to in an
  object, each with the view of its value. For a node they depend on its type.
* `Alike v d e` says that two optional values are equal as far as the view goes. All that a document
  contains can be replaced in this way, any number of times.
* `View.seen` is what the reader learns from a value. Alike values are seen alike
  (`Alike.seenAlike`), by induction on how they are alike; an object is read out of the keys of its
  view (`seenAlike_object`).
-/

namespace PatternTree

/-! ## Views -/

/-- A way of looking at a value of a document. -/
inductive View where
  /-- as a node -/
  | node
  /-- as a list of nodes -/
  | list
  /-- as a location -/
  | location
  /-- as an end of a location -/
  | position
  /-- as the type of a node -/
  | tag
  /-- as a truth value -/
  | flag
  /-- as the word that tells accessors from other properties -/
  | accessor
  /-- as a text or a number, or as the value of a literal -/
  | datum

/-- The keys that the fields of a kind are read from. -/
def Tag.reads : Tag → List (String × View)
  | .identifier => [("name", .datum)]
  | .literal => [("value", .datum), ("raw", .datum)]
  | .memberExpression => [("object", .node), ("property", .node), ("computed", .flag)]
  | .arrayPattern => [("elements", .list)]
  | .objectPattern => [("properties", .list)]
  | .property | .assignmentProperty =>
    [("kind", .accessor), ("method", .flag), ("key", .node), ("value", .node), ("shorthand", .flag),
      ("computed", .flag)]
  | .assignmentPattern => [("left", .node), ("right", .node)]
  | .restElement => [("argument", .node)]

/-- The keys that are read of an object, and the views of their values. A node without a type is
looked at no further, and one with an unknown type only for its location. -/
def View.reads : View → Fields → List (String × View)
  | .node, fields =>
    ("type", .tag) :: match Fields.value? "type" fields with
      | some (.string name) => ("location", .location) :: ((Tag.ofName? name).map Tag.reads).getD []
      | _ => []
  | .location, _ => [("start", .position), ("end", .position)]
  | .position, _ => [("line", .datum), ("column", .datum), ("offset", .datum)]
  | _, _ => []

/-- Two optional values are equal, as far as a view of them goes. -/
inductive Alike : View → Option Document → Option Document → Prop where
  /-- equal values -/
  | refl (v : View) (d : Option Document) : Alike v d d
  /-- in the other order -/
  | symm {v : View} {d e : Option Document} (h : Alike v d e) : Alike v e d
  /-- one change after the other -/
  | trans {v : View} {d e f : Option Document} (h : Alike v d e) (h' : Alike v e f) : Alike v d f
  /-- a missing child for a null one -/
  | missingNode : Alike .node none (some .null)
  /-- a missing location for a null one -/
  | missingLocation : Alike .location none (some .null)
  /-- a missing end for a null one -/
  | missingPosition : Alike .position none (some .null)
  /-- a missing flag for a false one -/
  | missingFlag : Alike .flag none (some (.bool false))
  /-- a missing kind of property for the one that is no accessor -/
  | missingKind : Alike .accessor none (some (.string "init"))
  /-- one tag of an entry of an object for the other -/
  | propertyTag : Alike .tag (some (.string "Property")) (some (.string "AssignmentProperty"))
  /-- objects whose values are alike for all keys that are read; other keys are free -/
  | object {v : View} {fields fields' : Fields}
      (each : ∀ key w, (key, w) ∈ v.reads fields →
        Alike w (Fields.value? key fields) (Fields.value? key fields')) :
      Alike v (some (.object fields)) (some (.object fields'))
  /-- lists whose entries are alike -/
  | list {ds es : List Document} (length : ds.length = es.length)
      (each : ∀ i : Nat, Alike .node ds[i]? es[i]?) :
      Alike .list (some (.array ds)) (some (.array es))
  /-- arrays where none is wanted -/
  | array {v : View} {ds es : List Document} (unread : v ≠ .list) :
      Alike v (some (.array ds)) (some (.array es))

/-! ## What is seen of a value -/

namespace Document

/-- The value without what an array or an object contains. -/
def face : Document → Document
  | .array _ => .array []
  | .object _ => .object []
  | d => d

/-- Values with one face are equal, or both arrays, or both objects. -/
theorem cases_of_face_eq {d e : Option Document} (h : d.map face = e.map face) :
    d = e ∨ (∃ ds es, d = some (.array ds) ∧ e = some (.array es)) ∨
      ∃ fields fields', d = some (.object fields) ∧ e = some (.object fields') := by
  cases d with
  | none =>
    cases e with
    | none => exact .inl rfl
    | some e => cases h
  | some d =>
    cases e with
    | none => cases h
    | some e => cases d <;> cases e <;> simp_all [face]

end Document

/-- The text of a type, the two tags of an entry taken for one. -/
def typeText? : Option Document → Option String
  | some (.string tag) => some (if tag = "AssignmentProperty" then "Property" else tag)
  | _ => none

/-- The truth value that a value stands for. -/
def truth? : Option Document → Option Bool
  | none => some false
  | some (.bool b) => some b
  | some _ => none

/-- The value says that a property is no accessor. -/
def isInit : Option Document → Bool
  | none => true
  | some (.string s) => s == "init"
  | some _ => false

/-- The location that an optional value denotes. -/
def readLocationValue (owner : String) : Option Document → Traced Location
  | none => pure .unset
  | some .null => pure .unset
  | some (.object ends) => do
    let start ← readPosition owner (Fields.value? "start" ends)
    let l ← Location.unset.setOptional .start start
    let stop ← readPosition owner (Fields.value? "end" ends)
    l.setOptional .stop stop
  | some _ => Traced.fail (.invalidField owner "location" "an object")

/-- The outcome of reading the entries of a list, if there is a value and it is a list. -/
def entriesOutcome? (field : String) :
    Option Document → Option (Option (Except Fault (List (Option AnyNode))))
  | none => none
  | some (.array ds) => some (some (Node.readEntries field 0 ds).outcome)
  | some _ => some none

namespace View

/-- What can be seen of a value: the outcome of reading it, wherever it stands, or what of it the
outcome depends on. -/
def Sight : View → Type
  | .node => Place → Except Fault (Option AnyNode)
  | .list => String → Option (Option (Except Fault (List (Option AnyNode))))
  | .location => String → Except Fault Location
  | .position => String → Except Fault (Option Position)
  | .tag => Option String
  | .flag => Option Bool
  | .accessor => Bool
  | .datum => Option Document

/-- What is seen of a value. -/
def seen : (v : View) → Option Document → v.Sight
  | .node, d => fun place => (Node.readOptional place d).outcome
  | .list, d => fun field => entriesOutcome? field d
  | .location, d => fun owner => (readLocationValue owner d).outcome
  | .position, d => fun owner => (readPosition owner d).outcome
  | .tag, d => typeText? d
  | .flag, d => truth? d
  | .accessor, d => isInit d
  | .datum, d => d.map Document.face

end View

/-- A relation holds between the values of two objects, for each of some keys and its view. -/
def OnKeys (R : View → Option Document → Option Document → Prop) :
    List (String × View) → Fields → Fields → Prop
  | [], _, _ => True
  | (key, v) :: rest, fields, fields' =>
    R v (Fields.value? key fields) (Fields.value? key fields') ∧ OnKeys R rest fields fields'

theorem onKeys_iff {R : View → Option Document → Option Document → Prop}
    {keys : List (String × View)} {fields fields' : Fields} : OnKeys R keys fields fields' ↔
      ∀ key v, (key, v) ∈ keys → R v (Fields.value? key fields) (Fields.value? key fields') := by
  induction keys with
  | nil => simp [OnKeys]
  | cons k rest ih =>
    obtain ⟨key, v⟩ := k
    rw [OnKeys, ih]
    refine ⟨?_,
      fun h => ⟨h key v List.mem_cons_self, fun _ _ hk => h _ _ (List.mem_cons_of_mem _ hk)⟩⟩
    rintro ⟨h, hrest⟩ key' v' hk
    rcases List.mem_cons.mp hk with heq | hk
    · cases heq
      exact h
    · exact hrest key' v' hk

/-- Two values are seen alike. -/
def SeenAlike (v : View) (d e : Option Document) : Prop :=
  v.seen d = v.seen e

/-! ## Readers of single fields -/

section

variable {owner field : String} {fields fields' : Fields} {l : Location}

theorem readLocation_eq : readLocation owner fields =
    readLocationValue owner (Fields.value? "location" fields) := by
  rw [readLocation]
  cases Fields.value? "location" fields with
  | none => rfl
  | some d => cases d <;> rfl

/-- The values of two objects for a key are seen alike. -/
def SameAt (key : String) (v : View) (fields fields' : Fields) : Prop :=
  SeenAlike v (Fields.value? key fields) (Fields.value? key fields')

theorem outcome_readLocation_congr (h : SameAt "location" .location fields fields')
    (owner : String) :
    (readLocation owner fields).outcome = (readLocation owner fields').outcome := by
  rw [readLocation_eq, readLocation_eq]
  exact congrFun h owner

theorem readCoordinate_congr (h : SameAt field .datum fields fields') :
    readCoordinate owner field fields = readCoordinate owner field fields' := by
  rw [readCoordinate, readCoordinate]
  rcases Document.cases_of_face_eq h with heq | ⟨ds, es, hd, he⟩ | ⟨fs, gs, hd, he⟩
  · rw [heq]
  · rw [hd, he]
  · rw [hd, he]

theorem readString_congr (h : SameAt field .datum fields fields') :
    readString owner field fields l = readString owner field fields' l := by
  rw [readString, readString]
  rcases Document.cases_of_face_eq h with heq | ⟨ds, es, hd, he⟩ | ⟨fs, gs, hd, he⟩
  · rw [heq]
  · rw [hd, he]
  · rw [hd, he]

theorem readLiteralValue_congr (h : SameAt "value" .datum fields fields') :
    readLiteralValue fields l = readLiteralValue fields' l := by
  rw [readLiteralValue, readLiteralValue]
  rcases Document.cases_of_face_eq h with heq | ⟨ds, es, hd, he⟩ | ⟨fs, gs, hd, he⟩
  · rw [heq]
  · rw [hd, he]
  · rw [hd, he]

/-- A flag is what its value stands for, or a fault at the location of the object. -/
theorem readFlag_eq : readFlag owner field fields =
    match truth? (Fields.value? field fields) with
    | some b => pure b
    | none => (do
      let l ← readLocation owner fields
      Traced.fail (.invalidField owner field "a boolean") l) := by
  rw [readFlag]
  cases Fields.value? field fields with
  | none => rfl
  | some d => cases d <;> rfl

theorem refuseAccessor_eq : refuseAccessor fields =
    if isInit (Fields.value? "kind" fields) then pure () else (do
      let l ← readLocation "Property" fields
      Traced.fail (.invalidField "Property" "kind" "\"init\"") l) := by
  rw [refuseAccessor]
  split
  · next h => rw [h]; rfl
  · next h => rw [h]; rfl
  · next d hinit h =>
    have hno : isInit (some d) = false := by
      cases d with
      | string s => simpa [isInit] using hinit
      | _ => rfl
    rw [h, hno]
    rfl

theorem outcome_readFlag_congr (h : SameAt field .flag fields fields')
    (hl : SameAt "location" .location fields fields') :
    (readFlag owner field fields).outcome = (readFlag owner field fields').outcome := by
  rw [readFlag_eq, readFlag_eq, show truth? _ = truth? _ from h]
  cases truth? (Fields.value? field fields') with
  | some b => rfl
  | none => exact Traced.outcome_bind_congr (outcome_readLocation_congr hl owner) fun _ => rfl

theorem outcome_refuseAccessor_congr (h : SameAt "kind" .accessor fields fields')
    (hl : SameAt "location" .location fields fields') :
    (refuseAccessor fields).outcome = (refuseAccessor fields').outcome := by
  rw [refuseAccessor_eq, refuseAccessor_eq, show isInit _ = isInit _ from h]
  cases isInit (Fields.value? "kind" fields') with
  | true => rfl
  | false => exact Traced.outcome_bind_congr (outcome_readLocation_congr hl "Property") fun _ => rfl

theorem outcome_refuseMethod_congr (h : SameAt "method" .flag fields fields')
    (hl : SameAt "location" .location fields fields') :
    (refuseMethod fields).outcome = (refuseMethod fields').outcome := by
  refine Traced.outcome_bind_congr (outcome_readFlag_congr h hl) fun method => ?_
  cases method with
  | true => exact Traced.outcome_bind_congr (outcome_readLocation_congr hl "Property") fun _ => rfl
  | false => rfl

end

/-! ## Readers of nodes -/

namespace Node

variable {owner field : String} {fields fields' : Fields}

theorem outcome_readSlot_congr (h : SameAt field .node fields fields') (c : Capability) :
    (readSlot c field fields).outcome = (readSlot c field fields').outcome :=
  Traced.outcome_bind_congr (congrFun h ⟨field, none⟩) fun _ => rfl

/-- The outcome of a list, by what there is in its field. -/
theorem outcome_readList : (readList owner field fields).outcome =
    match entriesOutcome? field (Fields.value? field fields) with
    | some (some outcome) => outcome
    | some none => (do
      let l ← readLocation owner fields
      Traced.fail (.notAnArray field) l : Traced (List (Option AnyNode))).outcome
    | none => (do
      let l ← readLocation owner fields
      Traced.fail (.missingField owner field) l : Traced (List (Option AnyNode))).outcome := by
  rw [readList]
  cases Fields.value? field fields with
  | none => rfl
  | some d => cases d <;> rfl

theorem outcome_readList_congr (h : SameAt field .list fields fields')
    (hl : SameAt "location" .location fields fields') :
    (readList owner field fields).outcome = (readList owner field fields').outcome := by
  have hentries : entriesOutcome? field (Fields.value? field fields) =
      entriesOutcome? field (Fields.value? field fields') := congrFun h field
  have hfault := outcome_readLocation_congr hl owner
  rw [outcome_readList, outcome_readList, hentries]
  split
  · rfl
  · exact Traced.outcome_bind_congr hfault fun _ => rfl
  · exact Traced.outcome_bind_congr hfault fun _ => rfl

/-- An entry of an object is read out of the keys of its tag. -/
theorem outcome_readTagged_property_congr (hl : SameAt "location" .location fields fields')
    (h : OnKeys SeenAlike Tag.property.reads fields fields') :
    (readTagged fields .property).outcome = (readTagged fields' .property).outcome := by
  obtain ⟨hkind, hmethod, hkey, hvalue, hshorthand, hcomputed, -⟩ := h
  refine Traced.outcome_bind_congr (outcome_refuseAccessor_congr hkind hl) fun _ => ?_
  refine Traced.outcome_bind_congr (outcome_refuseMethod_congr hmethod hl) fun _ => ?_
  refine Traced.outcome_bind_congr (outcome_readSlot_congr hkey _) fun _ => ?_
  refine Traced.outcome_bind_congr (outcome_readSlot_congr hvalue _) fun _ => ?_
  refine Traced.outcome_bind_congr (outcome_readFlag_congr hshorthand hl) fun _ => ?_
  refine Traced.outcome_bind_congr (outcome_readFlag_congr hcomputed hl) fun _ => ?_
  exact Traced.outcome_bind_congr (outcome_readLocation_congr hl _) fun _ => rfl

/-- A tagged object is read out of its location and the keys of its tag. -/
theorem outcome_readTagged_congr {t : Tag} (hl : SameAt "location" .location fields fields')
    (h : OnKeys SeenAlike t.reads fields fields') :
    (readTagged fields t).outcome = (readTagged fields' t).outcome := by
  have location (owner : String) := outcome_readLocation_congr hl owner
  cases t with
  | identifier =>
    obtain ⟨hname, -⟩ := h
    refine Traced.outcome_bind_congr (location _) fun l => ?_
    rw [readString_congr hname]
    refine Traced.outcome_bind_congr rfl fun _ => ?_
    exact Traced.outcome_bind_congr (location _) fun _ => rfl
  | literal =>
    obtain ⟨hvalue, hraw, -⟩ := h
    refine Traced.outcome_bind_congr (location _) fun l => ?_
    rw [readLiteralValue_congr hvalue]
    refine Traced.outcome_bind_congr rfl fun _ => ?_
    rw [readString_congr hraw]
    refine Traced.outcome_bind_congr rfl fun _ => ?_
    exact Traced.outcome_bind_congr (location _) fun _ => rfl
  | memberExpression =>
    obtain ⟨hobject, hproperty, hcomputed, -⟩ := h
    refine Traced.outcome_bind_congr (outcome_readSlot_congr hobject _) fun _ => ?_
    refine Traced.outcome_bind_congr (outcome_readSlot_congr hproperty _) fun _ => ?_
    refine Traced.outcome_bind_congr (outcome_readFlag_congr hcomputed hl) fun _ => ?_
    exact Traced.outcome_bind_congr (location _) fun _ => rfl
  | arrayPattern =>
    obtain ⟨helements, -⟩ := h
    refine Traced.outcome_bind_congr (outcome_readList_congr helements hl) fun _ => ?_
    refine Traced.outcome_bind_congr rfl fun _ => ?_
    exact Traced.outcome_bind_congr (location _) fun _ => rfl
  | objectPattern =>
    obtain ⟨hproperties, -⟩ := h
    refine Traced.outcome_bind_congr (outcome_readList_congr hproperties hl) fun _ => ?_
    refine Traced.outcome_bind_congr rfl fun _ => ?_
    exact Traced.outcome_bind_congr (location _) fun _ => rfl
  | property => exact outcome_readTagged_property_congr hl h
  | assignmentProperty => exact outcome_readTagged_property_congr hl h
  | assignmentPattern =>
    obtain ⟨hleft, hright, -⟩ := h
    refine Traced.outcome_bind_congr (outcome_readSlot_congr hleft _) fun _ => ?_
    refine Traced.outcome_bind_congr (outcome_readSlot_congr hright _) fun _ => ?_
    exact Traced.outcome_bind_congr (location _) fun _ => rfl
  | restElement =>
    obtain ⟨hargument, -⟩ := h
    refine Traced.outcome_bind_congr (outcome_readSlot_congr hargument _) fun _ => ?_
    exact Traced.outcome_bind_congr (location _) fun _ => rfl

/-- The node of an object whose type is a text. -/
def readNamed (fields : Fields) (name : String) : Traced AnyNode :=
  match Tag.ofName? name with
  | some t => readTagged fields t
  | none => do
    let l ← readLocation "node" fields
    Traced.fail (.unknownNodeType name) l

/-- The outcome of an object does not tell the two tags of an entry apart. -/
theorem outcome_read_object (place : Place) (fields : Fields) :
    (read place (.object fields)).outcome =
      match typeText? (Fields.value? "type" fields) with
      | some name => (readNamed fields name).outcome
      | none => .error ⟨.notANode place, .unset⟩ := by
  rw [read_object]
  cases Fields.value? "type" fields with
  | none => rfl
  | some type =>
    cases type with
    | string name =>
      by_cases h : name = "AssignmentProperty"
      · subst h
        rfl
      · simp only [typeText?, if_neg h]
        rfl
    | _ => rfl

/-- The keys that are read of an object do not depend on which of the two tags it has. -/
theorem reads_node {name : String} (h : typeText? (Fields.value? "type" fields) = some name) :
    View.node.reads fields =
      ("type", .tag) :: ("location", .location) :: ((Tag.ofName? name).map Tag.reads).getD [] := by
  rw [View.reads]
  cases htype : Fields.value? "type" fields with
  | none => simp [htype, typeText?] at h
  | some type =>
    cases type with
    | string text =>
      rw [htype, typeText?, Option.some.injEq] at h
      by_cases htext : text = "AssignmentProperty"
      · subst htext
        subst h
        rfl
      · rw [if_neg htext] at h
        subst h
        rfl
    | _ => simp [htype, typeText?] at h

/-- An object is read out of the keys that are read of it. -/
theorem outcome_read_object_congr (place : Place)
    (h : OnKeys SeenAlike (View.node.reads fields) fields fields') :
    (read place (.object fields)).outcome = (read place (.object fields')).outcome := by
  have htype : typeText? (Fields.value? "type" fields) = typeText? (Fields.value? "type" fields') :=
    h.1
  rw [outcome_read_object, outcome_read_object, ← htype]
  cases hname : typeText? (Fields.value? "type" fields) with
  | none => rfl
  | some name =>
    rw [reads_node hname] at h
    obtain ⟨-, hl, h⟩ := h
    dsimp only [readNamed]
    cases ht : Tag.ofName? name with
    | some t =>
      rw [ht] at h
      exact outcome_readTagged_congr hl h
    | none => exact Traced.outcome_bind_congr (outcome_readLocation_congr hl "node") fun _ => rfl

end Node

/-! ## Alike values are seen alike -/

/-- Objects are seen alike when the values are that are read of them. -/
theorem seenAlike_object {v : View} {fields fields' : Fields}
    (h : OnKeys SeenAlike (v.reads fields) fields fields') :
    SeenAlike v (some (.object fields)) (some (.object fields')) := by
  cases v with
  | node =>
    funext place
    exact Traced.outcome_bind_congr (Node.outcome_read_object_congr place h) fun _ => rfl
  | location =>
    obtain ⟨hstart, hend, -⟩ := h
    funext owner
    refine Traced.outcome_bind_congr (congrFun hstart owner) fun _ => ?_
    refine Traced.outcome_bind_congr rfl fun _ => ?_
    exact Traced.outcome_bind_congr (congrFun hend owner) fun _ => rfl
  | position =>
    obtain ⟨hline, hcolumn, hoffset, -⟩ := h
    funext owner
    simp only [View.seen, readPosition, readCoordinate_congr hline, readCoordinate_congr hcolumn,
      readCoordinate_congr hoffset]
  | _ => rfl

/-- Lists are seen alike when their entries are. -/
theorem seenAlike_list {ds es : List Document} (hlength : ds.length = es.length)
    (h : ∀ i : Nat, SeenAlike .node ds[i]? es[i]?) :
    SeenAlike .list (some (.array ds)) (some (.array es)) := by
  funext field
  have hentries :
      (Node.readEntries field 0 ds).outcome = (Node.readEntries field 0 es).outcome := by
    rw [Node.readEntries_eq, Node.readEntries_eq]
    refine Traced.outcome_forEach_congr hlength fun i d e hd he => ?_
    have hi : SeenAlike .node (some d) (some e) := hd ▸ he ▸ h i
    exact congrFun hi ⟨field, some (0 + i)⟩
  exact congrArg (some ∘ some) hentries

theorem Alike.seenAlike {v : View} {d e : Option Document} (h : Alike v d e) : SeenAlike v d e := by
  induction h with
  | refl v d => rfl
  | symm _ ih => exact Eq.symm ih
  | trans _ _ ih ih' => exact Eq.trans ih ih'
  | missingNode => rfl
  | missingLocation => rfl
  | missingPosition => rfl
  | missingFlag => rfl
  | missingKind => rfl
  | propertyTag => rfl
  | object _ ih => exact seenAlike_object (onKeys_iff.mpr ih)
  | list length _ ih => exact seenAlike_list length ih
  | @array v ds es unread =>
    cases v with
    | list => exact absurd rfl unread
    | _ => rfl

namespace Node

/-- The outcome of a value that is not null is the one of its node. -/
theorem outcome_readOptional_some (place : Place) {d : Document} (h : d ≠ .null) :
    (readOptional place (some d)).outcome = (read place d).outcome.map some := by
  rw [readOptional_some place h]
  exact Traced.outcome_bind_map fun _ _ => rfl

/-- Documents that are seen alike are read alike. As a child null is no node, and as a document it
is a fault, but it is seen unlike every other document. -/
theorem outcome_read_congr (place : Place) {d e : Document}
    (h : SeenAlike .node (some d) (some e)) : (read place d).outcome = (read place e).outcome := by
  have hoptional : (readOptional place (some d)).outcome = (readOptional place (some e)).outcome :=
    congrFun h place
  by_cases hd : d = .null
  · subst hd
    rw [readOptional_ok_none hoptional.symm]
  · have he : e ≠ .null := by
      rintro rfl
      exact hd (readOptional_ok_none hoptional)
    rw [outcome_readOptional_some place hd, outcome_readOptional_some place he] at hoptional
    cases hd' : (read place d).outcome <;> cases he' : (read place e).outcome <;>
      simp_all [Except.map]

/-- **The reader depends on nothing but what it reads.** Alike documents are read as one tree, or
refused with one fault. -/
theorem ofDocument_outcome_eq_of_alike {d e : Document} (h : Alike .node (some d) (some e)) :
    (ofDocument d).outcome = (ofDocument e).outcome :=
  outcome_read_congr _ h.seenAlike

/-- A destructured object with one entry, of which nothing is written that could be left out. -/
def terseEntry : Document :=
  .object [("type", .string "ObjectPattern"), ("properties", .array [
    .object [("type", .string "Property"), ("key",
      .object [("type", .string "Identifier"), ("location", .object []), ("name", .string "a")])]])]

/-- The same with every default written out, under the other tag and with keys that are not read. -/
def verboseEntry : Document :=
  .object [("sourceType", .string "module"), ("type", .string "ObjectPattern"), ("location", .null),
    ("properties", .array [
      .object [("type", .string "AssignmentProperty"), ("kind", .string "init"),
        ("method", .bool false), ("shorthand", .bool false), ("computed", .bool false),
        ("value", .null), ("location", .null), ("key",
          .object [("name", .string "a"), ("raw", .string "a"), ("type", .string "Identifier"),
            ("location", .object [("start", .null), ("end", .null), ("source", .null)])])]])]

theorem terseEntry_read_as_verboseEntry :
    Alike .node (some terseEntry) (some verboseEntry) ∧
      (ofDocument terseEntry).outcome = (ofDocument verboseEntry).outcome := by
  have location : Alike .location (some (.object []))
      (some (.object [("start", .null), ("end", .null), ("source", .null)])) :=
    .object (onKeys_iff.mp ⟨.missingPosition, .missingPosition, trivial⟩)
  have key : Alike .node
      (some (.object
        [("type", .string "Identifier"), ("location", .object []), ("name", .string "a")]))
      (some (.object [("name", .string "a"), ("raw", .string "a"), ("type", .string "Identifier"),
        ("location", .object [("start", .null), ("end", .null), ("source", .null)])])) :=
    .object (onKeys_iff.mp ⟨.refl _ _, location, .refl _ _, trivial⟩)
  have alike : Alike .node (some terseEntry) (some verboseEntry) := by
    refine .object (onKeys_iff.mp ⟨.refl _ _, .missingLocation, .list rfl ?_, trivial⟩)
    rintro (_ | i)
    · exact .object (onKeys_iff.mp ⟨.propertyTag, .missingLocation, .missingKind, .missingFlag, key,
        .missingNode, .missingFlag, .missingFlag, trivial⟩)
    · exact .refl _ _
  exact ⟨alike, ofDocument_outcome_eq_of_alike alike⟩

end Node

end PatternTree
