import PatternTree.Proofs.Acceptance

/-!
# The faults of the reader are true

Every fault that the reader ends with is about one value inside the document, and what it says of
that value holds. `Blames place v e` has one rule for each thing that a fault can say:

* the value is no node, or its type is no tag;
* a field of it is missing, or has a value of the wrong form, or should hold a list;
* its location is malformed;
* it is absent from, or not admitted at, the place where it stands.

The tables `Tag.forms`, `Tag.required` and `Tag.list?` say what is expected of the fields of an
object, so that a fault about a field cannot name one that is not read. The location of a fault is
that of the value it blames; a fault about a location, or about a value that has none, has no
location itself.
-/

namespace PatternTree

/-! ## What is expected of a field -/

/-- What the value of a plain field may look like. -/
inductive Form where
  /-- any text -/
  | text
  /-- a truth value -/
  | flag
  /-- the value of a literal -/
  | scalar
  /-- the word `init` -/
  | init
  /-- the truth value `false` -/
  | never
  deriving DecidableEq

namespace Form

/-- The values of a form. -/
def admits : Form → Document → Bool
  | .text, .string _ => true
  | .flag, .bool _ => true
  | .scalar, .null => true
  | .scalar, .bool _ => true
  | .scalar, .number _ => true
  | .scalar, .string _ => true
  | .init, .string s => s == "init"
  | .never, .bool b => !b
  | _, _ => false

/-- The form in words. -/
def wording : Form → String
  | .text => "a string"
  | .flag => "a boolean"
  | .scalar => "null, a boolean, a number or a string"
  | .init => "\"init\""
  | .never => "false"

end Form

namespace Tag

/-- The plain fields of an object with a tag, and their forms. -/
def forms : Tag → List (String × Form)
  | .identifier => [("name", .text)]
  | .literal => [("value", .scalar), ("raw", .text)]
  | .memberExpression => [("computed", .flag)]
  | .property | .assignmentProperty =>
    [("kind", .init), ("method", .flag), ("method", .never), ("shorthand", .flag),
      ("computed", .flag)]
  | _ => []

/-- The field of an object with a tag that holds a list of children. -/
def list? : Tag → Option String
  | .arrayPattern => some "elements"
  | .objectPattern => some "properties"
  | _ => none

/-- The fields that an object with a tag must have. -/
def required : Tag → List String
  | .identifier => ["name"]
  | .literal => ["value", "raw"]
  | .arrayPattern => ["elements"]
  | .objectPattern => ["properties"]
  | _ => []

end Tag

/-! ## Malformed locations -/

/-- A value that cannot be a position, and why. -/
inductive MalformedPosition (owner : String) : Document → Cause → Prop where
  /-- the value is no object -/
  | notAnObject {d : Document} (set : d ≠ .null) (other : ∀ fields, d ≠ .object fields) :
      MalformedPosition owner d (.invalidField owner "location" "a pair of positions")
  /-- one of the numbers is missing, or no integer of 32 bits -/
  | coordinate {fields : Fields} {field : String} (named : field ∈ ["line", "column", "offset"])
      (wrong : ∀ k : UInt32, Fields.value? field fields ≠ some (.number (.integer k.toNat))) :
      MalformedPosition owner (.object fields) (.invalidField owner field "an unsigned integer")

/-- A value that cannot be a location, and why. -/
inductive MalformedLocation (owner : String) : Document → Cause → Prop where
  /-- the value is no object -/
  | notAnObject {d : Document} (set : d ≠ .null) (other : ∀ fields, d ≠ .object fields) :
      MalformedLocation owner d (.invalidField owner "location" "an object")
  /-- one of the ends cannot be a position -/
  | position {ends : Fields} {name : String} {d : Document} {cause : Cause}
      (named : name ∈ ["start", "end"]) (present : Fields.value? name ends = some d)
      (malformed : MalformedPosition owner d cause) : MalformedLocation owner (.object ends) cause

/-- The name that faults use for an object. -/
inductive ReadAs (fields : Fields) : String → Prop where
  /-- the name that goes with the tag -/
  | tagged {t : Tag} (tagged : Tagged fields t) : ReadAs fields t.owner
  /-- a name for objects whose type is no tag -/
  | unknown {tag : String} (typed : Fields.value? "type" fields = some (.string tag))
      (unknown : ∀ t : Tag, t.name ≠ tag) : ReadAs fields "node"

/-! ## Blame -/

/-- The place of a whole document. -/
def Place.root : Place :=
  ⟨"root", none⟩

/-- What a fault says is true of a value at a place. -/
inductive Blames : Place → Document → Fault → Prop where
  /-- the value is no object with a type; null is one only as a whole document -/
  | notANode {place : Place} {v : Document} (set : v = .null → place = .root)
      (untyped : ∀ fields tag, v = .object fields →
        Fields.value? "type" fields ≠ some (.string tag)) :
      Blames place v ⟨.notANode place, .unset⟩
  /-- the type is no tag -/
  | unknownNodeType {place : Place} {fields : Fields} {tag : String} {l : Location}
      (typed : Fields.value? "type" fields = some (.string tag)) (unknown : ∀ t : Tag, t.name ≠ tag)
      (location : DenotesLocation (Fields.value? "location" fields) l) :
      Blames place (.object fields) ⟨.unknownNodeType tag, l⟩
  /-- a required field is missing -/
  | missingField {place : Place} {fields : Fields} {t : Tag} {field : String} {l : Location}
      (tagged : Tagged fields t) (required : field ∈ t.required)
      (missing : Fields.value? field fields = none)
      (location : DenotesLocation (Fields.value? "location" fields) l) :
      Blames place (.object fields) ⟨.missingField t.owner field, l⟩
  /-- a plain field has another form -/
  | invalidField {place : Place} {fields : Fields} {t : Tag} {field : String} {form : Form}
      {d : Document} {l : Location} (tagged : Tagged fields t) (plain : (field, form) ∈ t.forms)
      (present : Fields.value? field fields = some d) (wrong : form.admits d = false)
      (location : DenotesLocation (Fields.value? "location" fields) l) :
      Blames place (.object fields) ⟨.invalidField t.owner field form.wording, l⟩
  /-- the field of the children holds no list -/
  | notAnArray {place : Place} {fields : Fields} {t : Tag} {field : String} {d : Document}
      {l : Location} (tagged : Tagged fields t) (list : t.list? = some field)
      (present : Fields.value? field fields = some d) (wrong : ∀ entries, d ≠ .array entries)
      (location : DenotesLocation (Fields.value? "location" fields) l) :
      Blames place (.object fields) ⟨.notAnArray field, l⟩
  /-- the location is malformed -/
  | location {place : Place} {fields : Fields} {owner : String} {d : Document} {cause : Cause}
      (named : ReadAs fields owner) (present : Fields.value? "location" fields = some d)
      (malformed : MalformedLocation owner d cause) : Blames place (.object fields) ⟨cause, .unset⟩
  /-- the value is null as an entry of an object pattern -/
  | absentElement (index : Nat) :
      Blames (Step.entry index).place .null ⟨.absentElement "properties" index, .unset⟩
  /-- the value is a tree that its place does not admit -/
  | missingCapability {s : Step} {v : Document} {n : AnyNode} (tree : Denotes v n)
      (lacks : s.capability.admits n.kind = false) :
      Blames s.place v ⟨.missingCapability s.place s.capability n.kind, n.location⟩

/-! ## The faults of the plain readers -/

theorem readCoordinate_error {owner field : String} {fields : Fields} {e : Fault}
    (h : (readCoordinate owner field fields).outcome = .error e) :
    (∀ k : UInt32, Fields.value? field fields ≠ some (.number (.integer k.toNat))) ∧
      e = ⟨.invalidField owner field "an unsigned integer", .unset⟩ := by
  refine ⟨?_, ?_⟩
  · intro k hk
    rw [readCoordinate_ok_iff.mpr hk] at h
    cases h
  · rw [readCoordinate] at h
    split at h
    · split at h
      · cases h
      · cases h
        rfl
    · cases h
      rfl

theorem readPosition_error {owner : String} {d : Option Document} {e : Fault}
    (h : (readPosition owner d).outcome = .error e) :
    ∃ u cause, d = some u ∧ MalformedPosition owner u cause ∧ e = ⟨cause, .unset⟩ := by
  unfold readPosition at h
  split at h
  · cases h
  · cases h
  · next fields =>
    simp only [Traced.bind_error_iff] at h
    rcases h with h | ⟨_, -, h | ⟨_, -, h | ⟨_, -, h⟩⟩⟩
    · obtain ⟨hwrong, rfl⟩ := readCoordinate_error h
      exact ⟨_, _, rfl, .coordinate (by decide) hwrong, rfl⟩
    · obtain ⟨hwrong, rfl⟩ := readCoordinate_error h
      exact ⟨_, _, rfl, .coordinate (by decide) hwrong, rfl⟩
    · obtain ⟨hwrong, rfl⟩ := readCoordinate_error h
      exact ⟨_, _, rfl, .coordinate (by decide) hwrong, rfl⟩
    · cases h
  · next u hnull hobject =>
    cases h
    exact ⟨u, _, rfl, .notAnObject hnull hobject, rfl⟩

theorem readLocation_error {owner : String} {fields : Fields} {e : Fault}
    (h : (readLocation owner fields).outcome = .error e) :
    ∃ d cause, Fields.value? "location" fields = some d ∧ MalformedLocation owner d cause ∧
      e = ⟨cause, .unset⟩ := by
  rw [readLocation] at h
  split at h
  · cases h
  · cases h
  · next ends hends =>
    simp only [Traced.bind_error_iff, outcome_setOptional_start] at h
    rcases h with h | ⟨start, -, h | ⟨l, hl, h | ⟨stop, -, h⟩⟩⟩
    · obtain ⟨u, cause, hu, hmalformed, rfl⟩ := readPosition_error h
      exact ⟨_, cause, hends, .position (by decide) hu hmalformed, rfl⟩
    · cases h
    · obtain ⟨u, cause, hu, hmalformed, rfl⟩ := readPosition_error h
      exact ⟨_, cause, hends, .position (by decide) hu hmalformed, rfl⟩
    · cases hl
      rw [outcome_setOptional_stop] at h
      cases h
  · next d hnull hobject hd =>
    cases h
    exact ⟨d, _, hd, .notAnObject hnull hobject, rfl⟩

section

variable {place : Place} {fields : Fields} {t : Tag} {field : String} {e : Fault}

theorem blames_of_readLocation {owner : String} (named : ReadAs fields owner)
    (h : (readLocation owner fields).outcome = .error e) : Blames place (.object fields) e := by
  obtain ⟨d, cause, hd, hmalformed, rfl⟩ := readLocation_error h
  exact .location named hd hmalformed

/-- A fault that carries the location of its object is raised after that has been read. -/
theorem blames_of_fail {α : Type} {cause : Cause} (tagged : Tagged fields t)
    (h : (readLocation t.owner fields >>= fun l => (Traced.fail cause l : Traced α)).outcome =
      .error e)
    (blames : ∀ l, DenotesLocation (Fields.value? "location" fields) l →
      Blames place (.object fields) ⟨cause, l⟩) : Blames place (.object fields) e := by
  rcases Traced.bind_error_iff.mp h with h | ⟨l, hl, h⟩
  · exact blames_of_readLocation (.tagged tagged) h
  · cases h
    exact blames l (readLocation_ok_iff.mp hl)

theorem blames_of_readString {l : Location} (tagged : Tagged fields t)
    (plain : (field, .text) ∈ t.forms) (required : field ∈ t.required)
    (location : DenotesLocation (Fields.value? "location" fields) l)
    (h : (readString t.owner field fields l).outcome = .error e) :
    Blames place (.object fields) e := by
  rw [readString] at h
  split at h
  · cases h
  · next d htext hd =>
    cases h
    refine .invalidField tagged plain hd ?_ location
    cases d with
    | string s => exact absurd rfl (htext s)
    | _ => rfl
  · next hd =>
    cases h
    exact .missingField tagged required hd location

theorem blames_of_readLiteralValue {l : Location} (tagged : Tagged fields .literal)
    (location : DenotesLocation (Fields.value? "location" fields) l)
    (h : (readLiteralValue fields l).outcome = .error e) : Blames place (.object fields) e := by
  rw [readLiteralValue] at h
  split at h
  · next hd =>
    cases h
    exact .missingField tagged (by decide) hd location
  · cases h
  · cases h
  · cases h
  · cases h
  · next d hnull hbool hstring hnumber hd =>
    cases h
    refine .invalidField tagged (show ("value", Form.scalar) ∈ _ by decide) hd ?_ location
    cases d with
    | null => exact absurd rfl hnull
    | bool b => exact absurd rfl (hbool b)
    | number n => exact absurd rfl (hnumber n)
    | string s => exact absurd rfl (hstring s)
    | _ => rfl

theorem blames_of_readFlag (tagged : Tagged fields t) (plain : (field, .flag) ∈ t.forms)
    (h : (readFlag t.owner field fields).outcome = .error e) : Blames place (.object fields) e := by
  rw [readFlag] at h
  split at h
  · cases h
  · cases h
  · next d hbool hd =>
    refine blames_of_fail tagged h fun l hl => .invalidField tagged plain hd ?_ hl
    cases d with
    | bool b => exact absurd rfl (hbool b)
    | _ => rfl

theorem blames_of_refuseAccessor (tagged : Tagged fields t) (owner : "Property" = t.owner)
    (plain : ("kind", .init) ∈ t.forms) (h : (refuseAccessor fields).outcome = .error e) :
    Blames place (.object fields) e := by
  rw [refuseAccessor] at h
  rw [owner] at h
  split at h
  · cases h
  · cases h
  · next d hinit hd =>
    refine blames_of_fail tagged h fun l hl => .invalidField tagged plain hd ?_ hl
    cases d with
    | string s =>
      rw [Form.admits, beq_eq_false_iff_ne]
      rintro rfl
      exact hinit rfl
    | _ => rfl

theorem blames_of_refuseMethod (tagged : Tagged fields t) (owner : "Property" = t.owner)
    (plain : ("method", .flag) ∈ t.forms) (never : ("method", .never) ∈ t.forms)
    (h : (refuseMethod fields).outcome = .error e) : Blames place (.object fields) e := by
  rw [refuseMethod] at h
  rw [owner, Traced.bind_error_iff] at h
  rcases h with h | ⟨method, hmethod, h⟩
  · exact blames_of_readFlag tagged plain h
  · cases method with
    | false => cases h
    | true =>
      rw [readFlag_ok_iff] at hmethod
      refine blames_of_fail tagged h fun l hl => ?_
      generalize hd : Fields.value? "method" fields = d at hmethod
      cases hmethod
      exact .invalidField tagged never hd rfl hl

/-! ## The faults of children -/

/-- A fault of a node comes from one of its children: what it says is true of the child, or it is
the fault of reading the child. -/
def Descends (fields : Fields) (t : Tag) (e : Fault) : Prop :=
  ∃ (s : Step) (u : Document), t.kind = s.kind ∧
    (Document.object fields).child? s.place = some u ∧
    (Blames s.place u e ∨ (u ≠ .null ∧ (Node.read s.place u).outcome = .error e))

theorem readOptional_error {d : Option Document}
    (h : (Node.readOptional place d).outcome = .error e) :
    ∃ u, d = some u ∧ u ≠ .null ∧ (Node.read place u).outcome = .error e := by
  cases d with
  | none => cases h
  | some u =>
    by_cases hu : u = .null
    · subst hu
      cases h
    · rw [Node.readOptional_some place hu, Traced.bind_error_iff] at h
      rcases h with h | ⟨n, -, h⟩
      · exact ⟨u, rfl, hu, h⟩
      · cases h

/-- A child that was read denotes what it was read as. -/
theorem readOptional_ok_some {d : Option Document} {n : AnyNode}
    (h : (Node.readOptional place d).outcome = .ok (some n)) : ∃ u, d = some u ∧ Denotes u n := by
  cases d with
  | none => cases h
  | some u =>
    by_cases hu : u = .null
    · subst hu
      cases h
    · rw [Node.readOptional_some place hu, Traced.bind_ok_iff] at h
      obtain ⟨m, hm, h⟩ := h
      cases h
      exact ⟨u, rfl, (Node.readExactly u place _).mp hm⟩

theorem descends_of_readSlot {c : Capability} (s : Step) (kind : t.kind = s.kind)
    (hplace : s.place = ⟨field, none⟩) (hcapability : s.capability = c)
    (h : (Node.readSlot c field fields).outcome = .error e) : Descends fields t e := by
  have hchild : (Document.object fields).child? s.place = Fields.value? field fields := by
    rw [hplace, Document.child?_field]
  rw [Node.readSlot, ← hplace, Traced.bind_error_iff] at h
  rcases h with h | ⟨n, hn, h⟩
  · obtain ⟨u, hu, hnull, he⟩ := readOptional_error h
    exact ⟨s, u, kind, hchild.trans hu, .inr ⟨hnull, he⟩⟩
  · obtain ⟨m, rfl, hm⟩ := requireOptional_error_iff.mp h
    rw [← hplace, ← hcapability] at hm
    obtain ⟨hlacks, rfl⟩ := require_error_iff.mp hm
    obtain ⟨u, hu, htree⟩ := readOptional_ok_some hn
    exact ⟨s, u, kind, hchild.trans hu, .inl (.missingCapability htree hlacks)⟩

theorem blames_or_descends_of_readList (steps : Nat → Step) (tagged : Tagged fields t)
    (list : t.list? = some field) (required : field ∈ t.required)
    (kind : ∀ i, t.kind = (steps i).kind) (hplace : ∀ i, (steps i).place = ⟨field, some i⟩)
    (h : (Node.readList t.owner field fields).outcome = .error e) :
    Blames place (.object fields) e ∨ Descends fields t e := by
  rw [Node.readList] at h
  split at h
  · next ds hds =>
    rw [Node.readEntries_eq, Traced.forEach_error_iff] at h
    obtain ⟨i, u, hu, he, -⟩ := h
    rw [Nat.zero_add] at he
    obtain ⟨_, ⟨⟩, hnull, he⟩ := readOptional_error he
    refine .inr ⟨steps i, u, kind i, ?_, .inr ⟨hnull, ?_⟩⟩
    · rw [hplace, Document.child?_entry hds]
      exact hu
    · rw [hplace]
      exact he
  · next d harray hd =>
    exact .inl (blames_of_fail tagged h fun l hl => .notAnArray tagged list hd harray hl)
  · next hd => exact .inl (blames_of_fail tagged h fun l hl => .missingField tagged required hd hl)

/-- A list that was read but not admitted has an entry that is to blame. -/
theorem descends_of_requireFrom {c : Capability} {allowAbsent : Bool} {ds : List Document}
    {ns : List (Option AnyNode)} (steps : Nat → Step) (kind : ∀ i, t.kind = (steps i).kind)
    (hplace : ∀ i, (steps i).place = ⟨field, some i⟩)
    (hcapability : ∀ i, (steps i).capability = c)
    (absent : allowAbsent = false → ∀ i, steps i = .entry i)
    (hds : Fields.value? field fields = some (.array ds))
    (hns : (Node.readEntries field 0 ds).outcome = .ok ns)
    (h : (requireFrom c field allowAbsent 0 ns).outcome = .error e) : Descends fields t e := by
  rw [requireFrom_eq, Traced.forEach_error_iff] at h
  obtain ⟨i, n, hn, he, -⟩ := h
  rw [Node.readEntries_eq] at hns
  obtain ⟨u, hu, hread⟩ := Traced.forEach_ok_source hns hn
  rw [Nat.zero_add] at he hread
  rw [← hplace] at hread
  have hchild : (Document.object fields).child? (steps i).place = some u := by
    rw [hplace, Document.child?_entry hds]
    exact hu
  refine ⟨steps i, u, kind i, hchild, .inl ?_⟩
  rcases requireEntry_error_iff.mp he with ⟨rfl, habsent, rfl⟩ | ⟨m, rfl, hm⟩
  · have hfield : (⟨"properties", some i⟩ : Place) = ⟨field, some i⟩ := by
      rw [← hplace i, absent habsent i]
      rfl
    obtain ⟨rfl, -⟩ := Place.mk.inj hfield
    rw [absent habsent i, Node.readOptional_ok_none hread]
    exact .absentElement i
  · rw [← hplace, ← hcapability i] at hm
    obtain ⟨hlacks, rfl⟩ := require_error_iff.mp hm
    obtain ⟨_, ⟨⟩, htree⟩ := readOptional_ok_some hread
    exact .missingCapability htree hlacks

/-! ## Trees -/

/-- What the reader of a tag says is true of the object, or comes from one of its children. -/
theorem blames_or_descends_of_readTagged (tagged : Tagged fields t)
    (h : (Node.readTagged fields t).outcome = .error e) :
    Blames place (.object fields) e ∨ Descends fields t e := by
  cases t with
  | identifier =>
    simp only [Node.readTagged, Traced.bind_error_iff] at h
    rcases h with h | ⟨l, hl, h | ⟨_, -, h | ⟨_, -, h⟩⟩⟩
    · exact .inl (blames_of_readLocation (.tagged tagged) h)
    · exact .inl (blames_of_readString tagged (by decide) (by decide) (readLocation_ok_iff.mp hl) h)
    · exact .inl (blames_of_readLocation (.tagged tagged) h)
    · cases h
  | literal =>
    simp only [Node.readTagged, Traced.bind_error_iff] at h
    rcases h with h | ⟨l, hl, h | ⟨_, -, h | ⟨_, -, h | ⟨_, -, h⟩⟩⟩⟩
    · exact .inl (blames_of_readLocation (.tagged tagged) h)
    · exact .inl (blames_of_readLiteralValue tagged (readLocation_ok_iff.mp hl) h)
    · exact .inl (blames_of_readString tagged (by decide) (by decide) (readLocation_ok_iff.mp hl) h)
    · exact .inl (blames_of_readLocation (.tagged tagged) h)
    · cases h
  | memberExpression =>
    simp only [Node.readTagged, Traced.bind_error_iff] at h
    rcases h with h | ⟨_, -, h | ⟨_, -, h | ⟨_, -, h | ⟨_, -, h⟩⟩⟩⟩
    · exact .inr (descends_of_readSlot .object rfl rfl rfl h)
    · exact .inr (descends_of_readSlot .property rfl rfl rfl h)
    · exact .inl (blames_of_readFlag tagged (by decide) h)
    · exact .inl (blames_of_readLocation (.tagged tagged) h)
    · cases h
  | arrayPattern =>
    simp only [Node.readTagged, Traced.bind_error_iff, outcome_requireEntries] at h
    rcases h with h | ⟨ns, hns, h | ⟨_, -, h | ⟨_, -, h⟩⟩⟩
    · exact blames_or_descends_of_readList .element tagged rfl (by decide) (fun _ => rfl)
        (fun _ => rfl) h
    · obtain ⟨ds, hds, hns⟩ := Node.readList_ok_iff.mp hns
      exact .inr (descends_of_requireFrom .element (fun _ => rfl) (fun _ => rfl) (fun _ => rfl)
        (fun h => absurd h (by decide)) hds hns h)
    · exact .inl (blames_of_readLocation (.tagged tagged) h)
    · cases h
  | objectPattern =>
    simp only [Node.readTagged, Traced.bind_error_iff, requireList_error_iff] at h
    rcases h with h | ⟨ns, hns, h | ⟨_, -, h | ⟨_, -, h⟩⟩⟩
    · exact blames_or_descends_of_readList .entry tagged rfl (by decide) (fun _ => rfl)
        (fun _ => rfl) h
    · obtain ⟨ds, hds, hns⟩ := Node.readList_ok_iff.mp hns
      exact .inr (descends_of_requireFrom .entry (fun _ => rfl) (fun _ => rfl) (fun _ => rfl)
        (fun _ _ => rfl) hds hns h)
    · exact .inl (blames_of_readLocation (.tagged tagged) h)
    · cases h
  | property | assignmentProperty =>
    simp only [Node.readTagged, Traced.bind_error_iff] at h
    rcases h with
      h | ⟨_, -, h | ⟨_, -, h | ⟨_, -, h | ⟨_, -, h | ⟨_, -, h | ⟨_, -, h | ⟨_, -, h⟩⟩⟩⟩⟩⟩⟩
    · exact .inl (blames_of_refuseAccessor tagged rfl (by decide) h)
    · exact .inl (blames_of_refuseMethod tagged rfl (by decide) (by decide) h)
    · exact .inr (descends_of_readSlot .key rfl rfl rfl h)
    · exact .inr (descends_of_readSlot .value rfl rfl rfl h)
    · exact .inl (blames_of_readFlag tagged (by decide) h)
    · exact .inl (blames_of_readFlag tagged (by decide) h)
    · exact .inl (blames_of_readLocation (.tagged tagged) h)
    · cases h
  | assignmentPattern =>
    simp only [Node.readTagged, Traced.bind_error_iff] at h
    rcases h with h | ⟨_, -, h | ⟨_, -, h | ⟨_, -, h⟩⟩⟩
    · exact .inr (descends_of_readSlot .left rfl rfl rfl h)
    · exact .inr (descends_of_readSlot .right rfl rfl rfl h)
    · exact .inl (blames_of_readLocation (.tagged tagged) h)
    · cases h
  | restElement =>
    simp only [Node.readTagged, Traced.bind_error_iff] at h
    rcases h with h | ⟨_, -, h | ⟨_, -, h⟩⟩
    · exact .inr (descends_of_readSlot .argument rfl rfl rfl h)
    · exact .inl (blames_of_readLocation (.tagged tagged) h)
    · cases h

/-- A fault of reading a document at a place is true of a value that occurs in it, at the place of
that value. -/
theorem exists_blames_of_read {d : Document} (set : d = .null → place = .root)
    (h : (Node.read place d).outcome = .error e) :
    ∃ path v, Occurs d path v ∧ Blames (Step.endPlace place path) v e := by
  induction d using Document.childInduction generalizing place with
  | step d ih =>
    rcases Node.read_error_cases h with ⟨huntyped, rfl⟩ | ⟨fields, tag, rfl, htyped, hunknown, h⟩ |
      ⟨fields, t, rfl, tagged, h⟩
    · exact ⟨[], d, .here d, .notANode set huntyped⟩
    · refine ⟨[], _, .here _, ?_⟩
      rcases h with h | ⟨l, hl, rfl⟩
      · exact blames_of_readLocation (.unknown htyped hunknown) h
      · exact .unknownNodeType htyped hunknown (readLocation_ok_iff.mp hl)
    · rcases blames_or_descends_of_readTagged tagged h with h | ⟨s, u, kind, child, h | ⟨hu, h⟩⟩
      · exact ⟨[], _, .here _, h⟩
      · exact ⟨[s], u, .step tagged kind child (.here u), h⟩
      · -- the fault is that of reading the child, which is smaller
        obtain ⟨path, v, hoccurs, hblames⟩ := ih _ u child (fun h => absurd h hu) h
        exact ⟨s :: path, v, .step tagged kind child hoccurs, hblames⟩

/-- **Faults are true.** A document that is refused contains a value, reached through children that
the reader reads, of which the fault is true at its place. -/
theorem ofDocument_error_blames {d : Document}
    (h : (Node.ofDocument d).outcome = .error e) :
    ∃ path v, Occurs d path v ∧ Blames (Step.endPlace .root path) v e :=
  exists_blames_of_read (fun _ => rfl) h

end

/-- A literal where a rest pattern wants a pattern, in the second element of an array pattern. -/
def misplacedLiteral : Document :=
  .object [("type", .string "ArrayPattern"), ("elements", .array [.null,
    .object [("type", .string "RestElement"), ("argument",
      .object [("type", .string "Literal"), ("value", .null), ("raw", .string "null"),
        ("location", .object [("start", .object [("line", .ofNat 1), ("column", .ofNat 5),
          ("offset", .ofNat 5)])])])]])]

theorem misplacedLiteral_blames :
    (Node.ofDocument misplacedLiteral).outcome =
        .error ⟨.missingCapability ⟨"argument", none⟩ .pattern .literal, ⟨some ⟨1, 5, 5⟩, none⟩⟩ ∧
      ∃ path v, Occurs misplacedLiteral path v ∧ Blames (Step.endPlace .root path) v
        ⟨.missingCapability ⟨"argument", none⟩ .pattern .literal, ⟨some ⟨1, 5, 5⟩, none⟩⟩ :=
  ⟨rfl, ofDocument_error_blames rfl⟩

end PatternTree
