import PatternTree.Proofs.Reports

/-!
# Refusals are reported last

A check that refuses a candidate reports why, and then the whole import ends. So whatever is read,
at most one refusal is reported, nothing follows it, and it says what the fault says.

* A computation is `Candid` when its events end with the report of its refusal, if it ends with one,
  and hold no other. This passes from the parts of a sequence to the whole (`Candid.bind`): the
  first part is followed by a second one only if it did not fail.
* A computation is `Plain` when it reports nothing but warnings and refuses nothing. The readers of
  plain fields are, and so they are candid.
* `Node.candid_read` goes through the readers of the tags, by induction over the document.
-/

namespace PatternTree

/-- What a check reports when it refuses for the cause; the other causes are not those of a
check. -/
def Cause.report? : Cause → Option Event
  | .absentElement field index => some (.absentEntry field index)
  | .missingCapability place expected found => some (.lacksCapability place expected found)
  | _ => none

/-- The report of a refusal tells the reason of a failure. -/
theorem Cause.level_of_report? {c : Cause} {e : Event} (h : c.report? = some e) :
    e.level = .debug := by
  cases c with
  | absentElement | missingCapability =>
    obtain rfl := Option.some.inj h
    rfl
  | _ => cases h

/-! ## Candid computations -/

namespace Traced

variable {α β : Type}

/-- The report that a computation owes, by how it ended. -/
def refusal (x : Traced α) : List Event :=
  match x.outcome with
  | .ok _ => []
  | .error e => e.cause.report?.toList

/-- The computation reports the refusal that it ends with, as the last of its events, and no
other. -/
def Candid (x : Traced α) : Prop :=
  ∃ quiet : List Event, x.events = quiet ++ x.refusal ∧ ∀ e ∈ quiet, e.level ≠ .debug

theorem refusal_of_ok {x : Traced α} {a : α} (h : x.outcome = .ok a) : x.refusal = [] := by
  rw [refusal, h]

theorem refusal_of_error {x : Traced α} {e : Fault} (h : x.outcome = .error e) :
    x.refusal = e.cause.report?.toList := by
  rw [refusal, h]

theorem candid_pure (a : α) : (pure a : Traced α).Candid :=
  ⟨[], rfl, fun _ he => absurd he List.not_mem_nil⟩

theorem candid_report {es : List Event} (h : ∀ e ∈ es, e.level ≠ .debug) : (report es).Candid :=
  ⟨es, (List.append_nil es).symm, h⟩

/-- A sequence of candid parts is candid: a refusal of the first part is the end of both. -/
theorem Candid.bind {x : Traced α} {f : α → Traced β} (hx : x.Candid) (hf : ∀ a, (f a).Candid) :
    (x >>= f).Candid := by
  obtain ⟨quiet, hquiet, hlevel⟩ := hx
  cases h : x.outcome with
  | error e =>
    refine ⟨quiet, ?_, hlevel⟩
    have hend : (x >>= f).refusal = x.refusal := by
      rw [refusal_of_error (outcome_bind_error h f), refusal_of_error h]
    rw [events_bind, h, List.append_nil, hend]
    exact hquiet
  | ok a =>
    obtain ⟨more, hmore, hlevel'⟩ := hf a
    have hend : (x >>= f).refusal = (f a).refusal := by
      rw [refusal, outcome_bind_ok h, refusal]
    refine ⟨quiet ++ more, ?_, ?_⟩
    · rw [refusal_of_ok h, List.append_nil] at hquiet
      rw [events_bind_ok h, hquiet, hmore, hend, List.append_assoc]
    · intro e he
      rcases List.mem_append.mp he with he | he
      · exact hlevel e he
      · exact hlevel' e he

theorem candid_forEach {f : Nat → α → Traced β} {as : List α} (h : ∀ i, ∀ a ∈ as, (f i a).Candid)
    (index : Nat) : (forEach f index as).Candid := by
  induction as generalizing index with
  | nil => exact candid_pure []
  | cons a rest ih =>
    have hrest : ∀ i, ∀ b ∈ rest, (f i b).Candid := fun i b hb => h i b (List.mem_cons_of_mem _ hb)
    refine (h index a List.mem_cons_self).bind fun b => ?_
    exact (ih hrest (index + 1)).bind fun bs => candid_pure _

/-- A refusal is reported exactly when the computation ends with one, and its report is the only one
and the last of all events. -/
theorem Candid.debug_iff {x : Traced α} (hx : x.Candid) :
    ((∃ e ∈ x.events, e.level = .debug) ↔
        ∃ fault report, x.outcome = .error fault ∧ fault.cause.report? = some report) ∧
      ∀ fault report, x.outcome = .error fault → fault.cause.report? = some report →
        ∃ earlier, x.events = earlier ++ [report] ∧ ∀ e ∈ earlier, e.level ≠ .debug := by
  obtain ⟨quiet, hquiet, hlevel⟩ := hx
  have hlast : ∀ fault report, x.outcome = .error fault → fault.cause.report? = some report →
      x.events = quiet ++ [report] := by
    intro fault report hfault hreport
    rw [hquiet, refusal_of_error hfault, hreport]
    rfl
  refine ⟨⟨?_, ?_⟩, ?_⟩
  · rintro ⟨e, he, hdebug⟩
    rw [hquiet] at he
    rcases List.mem_append.mp he with he | he
    · exact absurd hdebug (hlevel e he)
    · cases hx : x.outcome with
      | ok a =>
        rw [refusal_of_ok hx] at he
        cases he
      | error fault =>
        rw [refusal_of_error hx] at he
        exact ⟨fault, e, rfl, Option.mem_toList.mp he⟩
  · rintro ⟨fault, report, hfault, hreport⟩
    refine ⟨report, ?_, Cause.level_of_report? hreport⟩
    rw [hlast fault report hfault hreport]
    exact List.mem_append_right _ (List.mem_singleton_self _)
  · intro fault report hfault hreport
    exact ⟨quiet, hlast fault report hfault hreport, hlevel⟩

/-! ## Plain computations -/

/-- The computation reports nothing but warnings, and its faults are not refusals. -/
structure Plain (x : Traced α) : Prop where
  /-- every event is a warning -/
  warns : ∀ e ∈ x.events, e.level = .warn
  /-- there is nothing to report about a fault -/
  silent : ∀ fault, x.outcome = .error fault → fault.cause.report? = none

theorem plain_pure (a : α) : (pure a : Traced α).Plain := by
  refine ⟨fun _ he => absurd he List.not_mem_nil, fun fault hfault => ?_⟩
  cases hfault

theorem plain_fail {cause : Cause} (h : cause.report? = none) (l : Location) :
    (fail cause l : Traced α).Plain := by
  refine ⟨fun _ he => absurd he List.not_mem_nil, fun fault hfault => ?_⟩
  cases hfault
  exact h

theorem Plain.bind {x : Traced α} {f : α → Traced β} (hx : x.Plain) (hf : ∀ a, (f a).Plain) :
    (x >>= f).Plain := by
  refine ⟨?_, ?_⟩
  · intro e he
    rw [events_bind] at he
    rcases List.mem_append.mp he with he | he
    · exact hx.warns e he
    · cases h : x.outcome with
      | ok a =>
        rw [h] at he
        exact (hf a).warns e he
      | error fault =>
        rw [h] at he
        cases he
  · intro fault h
    rcases bind_error_iff.mp h with h | ⟨a, -, h⟩
    · exact hx.silent fault h
    · exact (hf a).silent fault h

/-- Warnings are no refusals. -/
theorem Plain.candid {x : Traced α} (hx : x.Plain) : x.Candid := by
  have hnone : x.refusal = [] := by
    cases h : x.outcome with
    | ok a => exact refusal_of_ok h
    | error fault => rw [refusal_of_error h, hx.silent fault h, Option.toList_none]
  refine ⟨x.events, ?_, ?_⟩
  · rw [hnone, List.append_nil]
  · intro e he hdebug
    rw [hx.warns e he] at hdebug
    cases hdebug

end Traced

/-! ## Plain readers -/

section

variable (owner field : String) (fields : Fields)

theorem plain_readCoordinate : (readCoordinate owner field fields).Plain := by
  rw [readCoordinate]
  split
  · split
    · exact Traced.plain_pure _
    · exact Traced.plain_fail rfl _
  · exact Traced.plain_fail rfl _

theorem plain_readPosition (d : Option Document) : (readPosition owner d).Plain := by
  unfold readPosition
  split
  · exact Traced.plain_pure none
  · exact Traced.plain_pure none
  · refine (plain_readCoordinate owner "line" _).bind fun line => ?_
    refine (plain_readCoordinate owner "column" _).bind fun column => ?_
    exact (plain_readCoordinate owner "offset" _).bind fun offset => Traced.plain_pure _
  · exact Traced.plain_fail rfl _

/-- A write reports at most that it left a location out of order. -/
theorem plain_setOptional (l : Location) (e : End) (p : Option Position) :
    (l.setOptional e p).Plain := by
  cases p with
  | none => exact Traced.plain_pure l
  | some p =>
    refine ⟨?_, ?_⟩
    · intro event he
      rw [Location.setOptional, Location.events_set] at he
      obtain ⟨s, t, rfl⟩ := Location.eq_outOfOrder_of_mem_warnings he
      rfl
    · intro fault h
      cases h

theorem plain_readLocation : (readLocation owner fields).Plain := by
  rw [readLocation]
  split
  · exact Traced.plain_pure _
  · exact Traced.plain_pure _
  · refine (plain_readPosition owner _).bind fun start => ?_
    refine (plain_setOptional _ .start start).bind fun l => ?_
    exact (plain_readPosition owner _).bind fun stop => plain_setOptional l .stop stop
  · exact Traced.plain_fail rfl _

/-- A fault that carries the location of its object, which is read first. -/
theorem plain_located_fail {α : Type} {cause : Cause} (h : cause.report? = none) :
    (readLocation owner fields >>= fun l => (Traced.fail cause l : Traced α)).Plain :=
  (plain_readLocation owner fields).bind fun l => Traced.plain_fail h l

theorem plain_readString (l : Location) : (readString owner field fields l).Plain := by
  rw [readString]
  split
  · exact Traced.plain_pure _
  · exact Traced.plain_fail rfl _
  · exact Traced.plain_fail rfl _

theorem plain_readLiteralValue (l : Location) : (readLiteralValue fields l).Plain := by
  rw [readLiteralValue]
  split
  · exact Traced.plain_fail rfl _
  · exact Traced.plain_pure _
  · exact Traced.plain_pure _
  · exact Traced.plain_pure _
  · exact Traced.plain_pure _
  · exact Traced.plain_fail rfl _

theorem plain_readFlag : (readFlag owner field fields).Plain := by
  rw [readFlag]
  split
  · exact Traced.plain_pure _
  · exact Traced.plain_pure _
  · exact plain_located_fail owner fields rfl

theorem plain_refuseAccessor : (refuseAccessor fields).Plain := by
  rw [refuseAccessor]
  split
  · exact Traced.plain_pure _
  · exact Traced.plain_pure _
  · exact plain_located_fail "Property" fields rfl

theorem plain_refuseMethod : (refuseMethod fields).Plain := by
  refine (plain_readFlag "Property" "method" fields).bind fun method => ?_
  cases method with
  | false => exact Traced.plain_pure ()
  | true => exact plain_located_fail "Property" fields rfl

end

/-! ## Checks -/

section

variable (c : Capability) (field : String)

/-- A check reports its refusal and ends. -/
theorem candid_require (place : Place) (n : AnyNode) : (require c place n).Candid := by
  rw [require]
  split
  · exact Traced.candid_pure _
  · exact ⟨[], rfl, fun _ he => absurd he List.not_mem_nil⟩

theorem candid_requireOptional (n : Option AnyNode) : (requireOptional c field n).Candid := by
  cases n with
  | none => exact Traced.candid_pure none
  | some n => exact (candid_require c ⟨field, none⟩ n).bind fun m => Traced.candid_pure _

theorem candid_requireEntry (allowAbsent : Bool) (index : Nat) (n : Option AnyNode) :
    (requireEntry c field allowAbsent index n).Candid := by
  cases n with
  | none =>
    cases allowAbsent with
    | true => exact Traced.candid_pure none
    | false => exact ⟨[], rfl, fun _ he => absurd he List.not_mem_nil⟩
  | some n => exact (candid_require c ⟨field, some index⟩ n).bind fun m => Traced.candid_pure _

theorem candid_requireEntries (ns : List (Option AnyNode)) (allowAbsent : Bool) :
    (requireEntries c field ns allowAbsent).Candid := by
  have hentries : (requireFrom c field allowAbsent 0 ns).Candid := by
    rw [requireFrom_eq]
    exact Traced.candid_forEach (fun i n _ => candid_requireEntry c field allowAbsent i n) 0
  have hreport : (Traced.report [.validated field ns.length c]).Candid := by
    refine Traced.candid_report fun e he hdebug => ?_
    obtain rfl := List.mem_singleton.mp he
    cases hdebug
  exact hentries.bind fun ms => hreport.bind fun _ => Traced.candid_pure ms

end

/-! ## Trees -/

namespace Node

/-- A document is read candidly at every place. -/
def ReadCandidly (d : Document) : Prop :=
  ∀ place : Place, (read place d).Candid

section

variable {fields : Fields}

theorem candid_readOptional {d : Option Document} (ih : ∀ u, d = some u → ReadCandidly u)
    (place : Place) : (readOptional place d).Candid := by
  cases d with
  | none => exact Traced.candid_pure none
  | some u =>
    by_cases hu : u = .null
    · subst hu
      exact Traced.candid_pure none
    · rw [readOptional_some place hu]
      exact (ih u rfl place).bind fun n => Traced.candid_pure _

theorem candid_readSlot
    (ih : ∀ place u, (Document.object fields).child? place = some u → ReadCandidly u)
    (c : Capability) (field : String) : (readSlot c field fields).Candid := by
  have hchild : ∀ u, Fields.value? field fields = some u → ReadCandidly u := by
    intro u hu
    rw [← Document.child?_field] at hu
    exact ih _ u hu
  exact (candid_readOptional hchild _).bind fun n => candid_requireOptional c field n

theorem candid_readList
    (ih : ∀ place u, (Document.object fields).child? place = some u → ReadCandidly u)
    (owner field : String) : (readList owner field fields).Candid := by
  rw [readList]
  split
  · next ds hds =>
    rw [readEntries_eq]
    refine Traced.candid_forEach (fun i d hd => ?_) 0
    obtain ⟨j, hj⟩ := List.mem_iff_getElem?.mp hd
    rw [← Document.child?_entry hds] at hj
    refine candid_readOptional (fun u hu => ?_) _
    obtain rfl := Option.some.inj hu
    exact ih _ _ hj
  · exact (plain_located_fail owner fields rfl).candid
  · exact (plain_located_fail owner fields rfl).candid

theorem candid_readTagged_collection
    (ih : ∀ place u, (Document.object fields).child? place = some u → ReadCandidly u)
    (k : Collection) : (readTagged fields k.tag).Candid := by
  rw [readTagged_collection]
  refine (candid_readList ih k.tag.owner k.field).bind fun ns => ?_
  refine (candid_requireEntries k.capability k.field ns k.allowAbsent).bind fun ms => ?_
  exact (plain_readLocation k.tag.owner fields).candid.bind fun location => Traced.candid_pure _

/-- Every part of reading an object is candid, if reading its children is. -/
theorem candid_readTagged (t : Tag)
    (ih : ∀ place u, (Document.object fields).child? place = some u → ReadCandidly u) :
    (readTagged fields t).Candid := by
  have hlocation (owner : String) : (readLocation owner fields).Candid :=
    (plain_readLocation owner fields).candid
  have hflag (owner field : String) : (readFlag owner field fields).Candid :=
    (plain_readFlag owner field fields).candid
  have htext (owner field : String) (l : Location) : (readString owner field fields l).Candid :=
    (plain_readString owner field fields l).candid
  cases t with
  | identifier =>
    refine (hlocation "Identifier").bind fun l => (htext "Identifier" "name" l).bind fun name => ?_
    exact (hlocation "Identifier").bind fun location => Traced.candid_pure _
  | literal =>
    refine (hlocation "Literal").bind fun l => ?_
    refine (plain_readLiteralValue fields l).candid.bind fun value => ?_
    refine (htext "Literal" "raw" l).bind fun raw => ?_
    exact (hlocation "Literal").bind fun location => Traced.candid_pure _
  | memberExpression =>
    refine (candid_readSlot ih .expression "object").bind fun object => ?_
    refine (candid_readSlot ih .expression "property").bind fun property => ?_
    refine (hflag "MemberExpression" "computed").bind fun computed => ?_
    exact (hlocation "MemberExpression").bind fun location => Traced.candid_pure _
  | arrayPattern => exact candid_readTagged_collection ih .elements
  | objectPattern => exact candid_readTagged_collection ih .properties
  | property | assignmentProperty =>
    refine (plain_refuseAccessor fields).candid.bind fun _ => ?_
    refine (plain_refuseMethod fields).candid.bind fun _ => ?_
    refine (candid_readSlot ih .expression "key").bind fun key => ?_
    refine (candid_readSlot ih .pattern "value").bind fun value => ?_
    refine (hflag "Property" "shorthand").bind fun shorthand => ?_
    refine (hflag "Property" "computed").bind fun computed => ?_
    exact (hlocation "Property").bind fun location => Traced.candid_pure _
  | assignmentPattern =>
    refine (candid_readSlot ih .pattern "left").bind fun left => ?_
    refine (candid_readSlot ih .expression "right").bind fun right => ?_
    exact (hlocation "AssignmentPattern").bind fun location => Traced.candid_pure _
  | restElement =>
    refine (candid_readSlot ih .pattern "argument").bind fun argument => ?_
    exact (hlocation "RestElement").bind fun location => Traced.candid_pure _

end

/-- Every document is read candidly. -/
theorem candid_read (d : Document) : ReadCandidly d := by
  induction d using Document.childInduction with
  | step d ih =>
    intro place
    cases d with
    | object fields =>
      rw [read_object]
      split
      · next tag htag =>
        have hreport : (Traced.report [.readingNode tag place.field]).Candid := by
          refine Traced.candid_report fun e he hdebug => ?_
          obtain rfl := List.mem_singleton.mp he
          cases hdebug
        refine hreport.bind fun _ => ?_
        split
        · next t _ => exact candid_readTagged t ih
        · exact (plain_located_fail "node" fields rfl).candid
      · exact (Traced.plain_fail rfl _).candid
    | _ => exact (Traced.plain_fail rfl _).candid

end Node

end PatternTree
