import PatternTree.Proofs.Reports
import PatternTree.Proofs.Tree

/-!
# The log of an import

What is reported while a document is read as a tree can be told from the tree. Each node is
announced once, before its children and these in the order of the fields; what is reported about the
node itself comes after its children.

* `Node.log` writes the events of a tree down. The document is needed for nothing but the tags under
  which its nodes are announced, since an entry of an object has two of them.
* `Node.events_readTagged` compares the events of an object with those of its children, and the
  induction over the document does the rest (`Node.readLogged`).
-/

namespace PatternTree

/-! ## The log of a tree -/

namespace Document

/-- The type of an object as a text, empty for other documents. -/
def typeText : Document → String
  | .object fields =>
    match Fields.value? "type" fields with
    | some (.string tag) => tag
    | _ => ""
  | _ => ""

/-- The value at a place, null if there is none. -/
def valueAt (d : Document) (place : Place) : Document :=
  .ofOption (d.child? place)

end Document

namespace Node

mutual

/-- The events of reading a document as a tree, for the field in which it stands. -/
def log (field : String) (d : Document) : {r : Role} → Node r → List Event
  -- the location of a name or a literal is read before its fields and again after them
  | _, .identifier _ b =>
    .readingNode d.typeText field :: (b.location.warnings ++ b.location.warnings)
  | _, .literal _ b =>
    .readingNode d.typeText field :: (b.location.warnings ++ b.location.warnings)
  | _, .memberExpression _ ⟨l, object, property, _⟩ =>
    .readingNode d.typeText field :: (expressionLog ⟨"object", none⟩ d object ++
      expressionLog ⟨"property", none⟩ d property ++ l.warnings)
  | _, .arrayPattern _ ⟨l, elements⟩ =>
    .readingNode d.typeText field :: (elementsLog 0 d elements ++
      (.validated "elements" elements.length .pattern :: l.warnings))
  | _, .objectPattern _ ⟨l, properties⟩ =>
    .readingNode d.typeText field :: (propertiesLog 0 d properties ++
      (.validated "properties" properties.length .patternProperty :: l.warnings))
  | _, .assignmentProperty _ ⟨l, key, value, _, _⟩ =>
    .readingNode d.typeText field :: (expressionLog ⟨"key", none⟩ d key ++
      patternLog ⟨"value", none⟩ d value ++ l.warnings)
  | _, .assignmentPattern _ ⟨l, left, right⟩ =>
    .readingNode d.typeText field :: (patternLog ⟨"left", none⟩ d left ++
      expressionLog ⟨"right", none⟩ d right ++ l.warnings)
  | _, .restElement _ ⟨l, argument⟩ =>
    .readingNode d.typeText field :: (patternLog ⟨"argument", none⟩ d argument ++ l.warnings)
termination_by structural _ n => n

/-- The events of an optional expression at a place of a document. -/
def expressionLog (place : Place) (d : Document) : Option Expression → List Event
  | none => []
  | some n => n.log place.field (d.valueAt place)
termination_by structural n => n

/-- The events of an optional pattern at a place of a document. -/
def patternLog (place : Place) (d : Document) : Option Pattern → List Event
  | none => []
  | some n => n.log place.field (d.valueAt place)
termination_by structural n => n

/-- The events of the elements of an array pattern, from an index on. -/
def elementsLog (index : Nat) (d : Document) : List (Option Pattern) → List Event
  | [] => []
  | n :: rest => patternLog ⟨"elements", some index⟩ d n ++ elementsLog (index + 1) d rest
termination_by structural ns => ns

/-- The events of the entries of an object pattern, from an index on. -/
def propertiesLog (index : Nat) (d : Document) : List PatternProperty → List Event
  | [] => []
  | n :: rest =>
    n.log "properties" (d.valueAt ⟨"properties", some index⟩) ++ propertiesLog (index + 1) d rest
termination_by structural ns => ns

end

theorem log_widen (field : String) (d : Document) {r : Role} (n : Node r) :
    n.widen.log field d = n.log field d := by
  cases n <;> rfl

/-! ## Children -/

section

variable {c : Capability}

/-- The events of an optional child at a place of a document. -/
def childLog (place : Place) (d : Document) : Option (Node (.only c)) → List Event
  | none => []
  | some n => n.log place.field (d.valueAt place)

/-- The events of a list of optional children, from an index on. -/
def entriesLog (field : String) (d : Document) : Nat → List (Option (Node (.only c))) → List Event
  | _, [] => []
  | index, n :: rest => childLog ⟨field, some index⟩ d n ++ entriesLog field d (index + 1) rest

theorem expressionLog_eq (place : Place) (d : Document) (n : Option Expression) :
    expressionLog place d n = childLog place d n := by
  cases n <;> rfl

theorem patternLog_eq (place : Place) (d : Document) (n : Option Pattern) :
    patternLog place d n = childLog place d n := by
  cases n <;> rfl

theorem elementsLog_eq (index : Nat) (d : Document) (ns : List (Option Pattern)) :
    elementsLog index d ns = entriesLog "elements" d index ns := by
  induction ns generalizing index with
  | nil => rfl
  | cons n rest ih => rw [elementsLog, entriesLog, patternLog_eq, ih]

theorem propertiesLog_eq (index : Nat) (d : Document) (ns : List PatternProperty) :
    propertiesLog index d ns = entriesLog "properties" d index (ns.map some) := by
  induction ns generalizing index with
  | nil => rfl
  | cons n rest ih =>
    rw [propertiesLog, ih]
    rfl

theorem log_arrayPattern (field : String) (d : Document) (l : Location)
    (ms : List (Option Pattern)) :
    log field d (.arrayPattern (Role.any_admits _) ⟨l, ms⟩ : AnyNode) =
      .readingNode d.typeText field :: (entriesLog "elements" d 0 ms ++
        (.validated "elements" ms.length .pattern :: l.warnings)) := by
  rw [log, elementsLog_eq]

/-- Where no entry is absent none gets lost, and the log can be told from the optional entries. -/
theorem log_objectPattern (field : String) (d : Document) (l : Location)
    (ms : List (Option PatternProperty)) (h : none ∉ ms) :
    log field d (.objectPattern (Role.any_admits _) ⟨l, ms.filterMap id⟩ : AnyNode) =
      .readingNode d.typeText field :: (entriesLog "properties" d 0 ms ++
        (.validated "properties" ms.length .patternProperty :: l.warnings)) := by
  have hpresent : (ms.filterMap id).map some = ms := map_some_filterMap_id h
  have hlength : (ms.filterMap id).length = ms.length := by
    rw [← List.length_map some, hpresent]
  rw [log, propertiesLog_eq, hpresent, hlength]

/-- A document that is read as a tree is reported by the log of that tree, at every place. -/
def ReadLogged (d : Document) : Prop :=
  ∀ (place : Place) (n : AnyNode), (read place d).outcome = .ok n →
    (read place d).events = n.log place.field d

variable {d : Document} {m : Option (Node (.only c))}

/-- A child is reported by its log, or not at all if there is none. -/
theorem events_readOptional {place : Place} (ih : ∀ u, d.child? place = some u → ReadLogged u)
    (h : (readOptional place (d.child? place)).outcome = .ok (m.map widen)) :
    (readOptional place (d.child? place)).events = childLog place d m := by
  cases m with
  | none =>
    cases hu : d.child? place with
    | none => rfl
    | some u =>
      rw [hu] at h
      rw [readOptional_ok_none h]
      rfl
  | some n =>
    cases hu : d.child? place with
    | none =>
      rw [hu] at h
      cases h
    | some u =>
      rw [hu] at h
      have hnull : u ≠ .null := by
        rintro rfl
        cases h
      rw [readOptional_some place hnull, Traced.bind_ok_iff] at h
      obtain ⟨k, hk, hn⟩ := h
      obtain rfl := Option.some.inj (Except.ok.inj hn)
      rw [readOptional_some place hnull, Traced.events_bind_ok hk, ih u hu place _ hk, log_widen,
        childLog, Document.valueAt, hu]
      exact List.append_nil _

theorem events_readSlot {fields : Fields} {field : String}
    (ih : ∀ place u, (Document.object fields).child? place = some u → ReadLogged u)
    (h : (readSlot c field fields).outcome = .ok m) :
    (readSlot c field fields).events = childLog ⟨field, none⟩ (.object fields) m := by
  rw [readSlot, Traced.bind_ok_iff] at h
  obtain ⟨n, hn, hm⟩ := h
  rw [readSlot, Traced.events_bind_ok hn, events_requireOptional hm, List.append_nil]
  obtain rfl := requireOptional_ok_iff.mp hm
  rw [← Document.child?_field] at hn ⊢
  exact events_readOptional (ih _) hn

/-- The entries of a list are reported one by one. -/
theorem events_readEntries {field : String} {index : Nat} {ds : List Document}
    {ms : List (Option (Node (.only c)))} (ih : ∀ place u, d.child? place = some u → ReadLogged u)
    (hds : ∀ i : Nat, i < ds.length → d.child? ⟨field, some (index + i)⟩ = ds[i]?)
    (h : (readEntries field index ds).outcome = .ok (ms.map (Option.map widen))) :
    (readEntries field index ds).events = entriesLog field d index ms := by
  rw [readEntries_eq] at h ⊢
  induction ds generalizing index ms with
  | nil =>
    cases ms with
    | nil => rfl
    | cons m ms => cases h
  | cons u rest ihrest =>
    rw [Traced.forEach, Traced.bind_ok_iff] at h
    obtain ⟨n, hn, h⟩ := h
    rw [Traced.bind_ok_iff] at h
    obtain ⟨ns, hns, h⟩ := h
    cases ms with
    | nil => cases h
    | cons m ms =>
      cases h
      have hu : d.child? ⟨field, some index⟩ = some u := hds 0 (Nat.succ_pos _)
      have hrest : ∀ i : Nat, i < rest.length →
          d.child? ⟨field, some (index + 1 + i)⟩ = rest[i]? := by
        intro i hi
        rw [Nat.add_right_comm, Nat.add_assoc]
        exact hds (i + 1) (Nat.succ_lt_succ hi)
      have hfirst := events_readOptional (ih _) (hu ▸ hn)
      rw [hu] at hfirst
      rw [Traced.forEach, Traced.events_bind_ok hn, Traced.events_bind_ok hns, ihrest hrest hns,
        hfirst, Traced.events_pure, List.append_nil]
      rfl

end

/-! ## Objects -/

section

variable {fields : Fields} {t : Tag} {n : AnyNode}

/-- A pattern with a list is reported by its entries, by the list as a whole and by its location. -/
theorem events_readTagged_collection (k : Collection)
    (ih : ∀ place u, (Document.object fields).child? place = some u → ReadLogged u)
    (h : (readTagged fields k.tag).outcome = .ok n) :
    ∃ l ms, n = k.node l ms ∧ (k.allowAbsent = true ∨ none ∉ ms) ∧
      (readTagged fields k.tag).events = entriesLog k.field (.object fields) 0 ms ++
        (.validated k.field ms.length k.capability :: l.warnings) := by
  rw [readTagged_collection] at h ⊢
  simp only [Traced.bind_ok_iff, readList_ok_iff] at h
  obtain ⟨ns, ⟨ds, hds, hns⟩, ms, hms, l, hl, hn⟩ := h
  obtain rfl := Except.ok.inj hn
  obtain ⟨rfl, habsent⟩ := requireFrom_ok_iff.mp ((outcome_requireEntries ns).symm.trans hms)
  have hentries := events_readEntries ih
    (fun i _ => (Nat.zero_add i).symm ▸ Document.child?_entry hds i) hns
  refine ⟨l, ms, rfl, habsent.imp_right fun hnone hmem => ?_, ?_⟩
  · exact hnone (List.mem_map_of_mem hmem)
  · rw [readList_of_listed _ hds, Traced.events_bind_ok hns, Traced.events_bind_ok hms,
      Traced.events_bind_ok hl, hentries, events_requireEntries hms, events_readLocation hl,
      Traced.events_pure, List.append_nil]
    rfl

/-- A tagged object is announced and then reported by the reader of its tag. -/
theorem events_read_tagged (place : Place) (tagged : Tagged fields t) :
    (read place (.object fields)).events =
      .readingNode t.name place.field :: (readTagged fields t).events := by
  rw [read_object, tagged]
  dsimp only
  rw [Traced.events_bind_ok (Traced.outcome_report _), Tag.ofName?_name]
  rfl

/-- The log of an object, if those of its children are known. -/
theorem events_readTagged (tagged : Tagged fields t)
    (ih : ∀ place u, (Document.object fields).child? place = some u → ReadLogged u)
    (h : (readTagged fields t).outcome = .ok n) (field : String) :
    .readingNode t.name field :: (readTagged fields t).events = n.log field (.object fields) := by
  have htype : (Document.object fields).typeText = t.name := by
    rw [Document.typeText, tagged]
  cases t with
  | identifier =>
    simp only [readTagged, Traced.bind_ok_iff] at h
    obtain ⟨l, hl, name, hname, l', hl', hn⟩ := h
    cases hn
    obtain rfl := Except.ok.inj (hl.symm.trans hl')
    rw [readTagged, Traced.events_bind_ok hl, Traced.events_bind_ok hname, Traced.events_bind_ok hl,
      events_readLocation hl, events_readString, Traced.events_pure, List.append_nil, log, htype]
    rfl
  | literal =>
    simp only [readTagged, Traced.bind_ok_iff] at h
    obtain ⟨l, hl, value, hvalue, raw, hraw, l', hl', hn⟩ := h
    cases hn
    obtain rfl := Except.ok.inj (hl.symm.trans hl')
    rw [readTagged, Traced.events_bind_ok hl, Traced.events_bind_ok hvalue,
      Traced.events_bind_ok hraw, Traced.events_bind_ok hl, events_readLocation hl,
      events_readLiteralValue, events_readString, Traced.events_pure, List.append_nil, log, htype]
    rfl
  | memberExpression =>
    simp only [readTagged, Traced.bind_ok_iff] at h
    obtain ⟨object, hobject, property, hproperty, computed, hcomputed, l, hl, hn⟩ := h
    cases hn
    rw [readTagged, Traced.events_bind_ok hobject, Traced.events_bind_ok hproperty,
      Traced.events_bind_ok hcomputed, Traced.events_bind_ok hl, events_readSlot ih hobject,
      events_readSlot ih hproperty, events_readFlag hcomputed, events_readLocation hl,
      Traced.events_pure, List.append_nil, log, htype, expressionLog_eq, expressionLog_eq,
      List.append_assoc]
    rfl
  | arrayPattern =>
    obtain ⟨l, ms, rfl, -, hevents⟩ := events_readTagged_collection .elements ih h
    have hlog := log_arrayPattern field (.object fields) l ms
    rw [htype] at hlog
    exact (congrArg _ hevents).trans hlog.symm
  | objectPattern =>
    obtain ⟨l, ms, rfl, habsent, hevents⟩ := events_readTagged_collection .properties ih h
    have hlog := log_objectPattern field (.object fields) l ms (habsent.resolve_left (by decide))
    rw [htype] at hlog
    exact (congrArg _ hevents).trans hlog.symm
  | property | assignmentProperty =>
    simp only [readTagged, Traced.bind_ok_iff] at h
    obtain ⟨_, haccessor, _, hmethod, key, hkey, value, hvalue, shorthand, hshorthand, computed,
      hcomputed, l, hl, hn⟩ := h
    cases hn
    rw [readTagged, Traced.events_bind_ok haccessor, Traced.events_bind_ok hmethod,
      Traced.events_bind_ok hkey, Traced.events_bind_ok hvalue, Traced.events_bind_ok hshorthand,
      Traced.events_bind_ok hcomputed, Traced.events_bind_ok hl, events_refuseAccessor haccessor,
      events_refuseMethod hmethod, events_readSlot ih hkey, events_readSlot ih hvalue,
      events_readFlag hshorthand, events_readFlag hcomputed, events_readLocation hl,
      Traced.events_pure, List.append_nil, log, htype, expressionLog_eq, patternLog_eq,
      List.append_assoc]
    rfl
  | assignmentPattern =>
    simp only [readTagged, Traced.bind_ok_iff] at h
    obtain ⟨left, hleft, right, hright, l, hl, hn⟩ := h
    cases hn
    rw [readTagged, Traced.events_bind_ok hleft, Traced.events_bind_ok hright,
      Traced.events_bind_ok hl, events_readSlot ih hleft, events_readSlot ih hright,
      events_readLocation hl, Traced.events_pure, List.append_nil, log, htype, patternLog_eq,
      expressionLog_eq, List.append_assoc]
  | restElement =>
    simp only [readTagged, Traced.bind_ok_iff] at h
    obtain ⟨argument, hargument, l, hl, hn⟩ := h
    cases hn
    rw [readTagged, Traced.events_bind_ok hargument, Traced.events_bind_ok hl,
      events_readSlot ih hargument, events_readLocation hl, Traced.events_pure, List.append_nil,
      log, htype, patternLog_eq]

end

/-- Every document that is read as a tree is reported by the log of that tree. -/
theorem readLogged (d : Document) : ReadLogged d := by
  induction d using Document.childInduction with
  | step d ih =>
    intro place n h
    obtain ⟨fields, t, rfl, tagged, h⟩ := read_ok_iff_tagged.mp h
    rw [events_read_tagged place tagged]
    exact events_readTagged tagged ih h place.field

end Node

end PatternTree
