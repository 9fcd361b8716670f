import PatternTree.Proofs.Log
import PatternTree.Proofs.Precedence
import PatternTree.Proofs.Refusals

/-!
# Lists that passed are reported

The reports of passed lists are compared with the document, whether the import succeeds or not.
An import that fails has still gone through a part of the document, and each list of that part which
passed its check has been reported.

* `Reached d path v` says that reading `d` gets as far as `v`: what is read in front of it is read
  without a fault. `Clear` says what that is, child by child.
* `Passes d path report` says that there is a pattern at the end of the path whose entries were all
  read and all admitted.
* `Accounts expected events` says that the reports among the events are the expected ones, one for
  each path. Like the events themselves, it is put together along a sequence (`Accounts.bind`), and
  `Node.accounted` does so for every document.
-/

namespace PatternTree

/-! ## Patterns that are reached -/

/-- The computation ends with a value. -/
def Traced.Succeeds {α : Type} (x : Traced α) : Prop :=
  ∃ a, x.outcome = .ok a

namespace Collection

/-- The step to an entry of the list. -/
def step : Collection → Nat → Step
  | .elements, i => .element i
  | .properties, i => .entry i

@[simp] theorem place_step (k : Collection) (i : Nat) : (k.step i).place = ⟨k.field, some i⟩ := by
  cases k <;> rfl

theorem step_inj {k : Collection} {i j : Nat} (h : k.step i = k.step j) : i = j := by
  cases k with
  | elements => exact Step.element.inj h
  | properties => exact Step.entry.inj h

theorem tag_inj {k k' : Collection} (h : k.tag = k'.tag) : k = k' := by
  cases k <;> cases k' <;> cases h <;> rfl

/-- The children of a pattern with a list are the entries of the list. -/
theorem kind_eq_iff {k : Collection} {s : Step} : k.tag.kind = s.kind ↔ ∃ i, s = k.step i := by
  refine ⟨?_, ?_⟩
  · intro h
    cases k <;> cases s <;> cases h
    all_goals exact ⟨_, rfl⟩
  · rintro ⟨i, rfl⟩
    cases k <;> rfl

/-- The entries in front of an index are read. -/
def ReadUpTo (k : Collection) (fields : Fields) (i : Nat) : Prop :=
  ∀ j < i, ∀ u, (Document.object fields).child? ⟨k.field, some j⟩ = some u →
    (Node.readOptional ⟨k.field, some j⟩ (some u)).Succeeds

/-- The entries of a list are all read, and all admitted. -/
def Passed (k : Collection) (ds : List Document) : Prop :=
  (∀ i e, ¬ k.Unreadable ds i e) ∧ ∀ i e, ¬ k.Unfit ds i e

end Collection

/-- Reading an object gets as far as the child that a step leads to. A single child is checked
before the next one is read, the entries of a list after the last of them. -/
def Clear (fields : Fields) : Step → Prop
  | .object => True
  | .property => (Node.readSlot .expression "object" fields).Succeeds
  | .key => (refuseAccessor fields).Succeeds ∧ (refuseMethod fields).Succeeds
  | .value => (refuseAccessor fields).Succeeds ∧ (refuseMethod fields).Succeeds ∧
      (Node.readSlot .expression "key" fields).Succeeds
  | .left => True
  | .right => (Node.readSlot .pattern "left" fields).Succeeds
  | .argument => True
  | .element i => Collection.elements.ReadUpTo fields i
  | .entry i => Collection.properties.ReadUpTo fields i

/-- Reading a document gets as far as the value at the end of a path. -/
inductive Reached : Document → List Step → Document → Prop where
  /-- it starts with the document itself -/
  | here (d : Document) : Reached d [] d
  /-- and goes on in a child, unless that is null -/
  | step {fields : Fields} {t : Tag} {s : Step} {u v : Document} {path : List Step}
      (tagged : Tagged fields t) (kind : t.kind = s.kind)
      (child : (Document.object fields).child? s.place = some u) (present : u ≠ .null)
      (clear : Clear fields s) (rest : Reached u path v) : Reached (.object fields) (s :: path) v

/-- The own list of a pattern passes, and this is its report. -/
def PassesHere (fields : Fields) (report : Event) : Prop :=
  ∃ (k : Collection) (ds : List Document), Tagged fields k.tag ∧
    Fields.value? k.field fields = some (.array ds) ∧ k.Passed ds ∧
    report = .validated k.field ds.length k.capability

/-- Reading a document gets to a pattern at the end of a path whose list passes, and this is its
report. -/
def Passes (d : Document) (path : List Step) (report : Event) : Prop :=
  ∃ fields, Reached d path (.object fields) ∧ PassesHere fields report

/-- There is a report below a child of an object. -/
def Below (fields : Fields) (s : Step) (path : List Step) (report : Event) : Prop :=
  ∃ u rest, path = s :: rest ∧ (Document.object fields).child? s.place = some u ∧ u ≠ .null ∧
    Passes u rest report

section

variable {fields : Fields} {t : Tag} {path : List Step} {report : Event}

theorem Tagged.unique {t' : Tag} (h : Tagged fields t) (h' : Tagged fields t') : t = t' := by
  have hname : t.name = t'.name := Document.string.inj (Option.some.inj (h.symm.trans h'))
  have hfound := congrArg Tag.ofName? hname
  rw [Tag.ofName?_name, Tag.ofName?_name] at hfound
  exact Option.some.inj hfound

/-- The reports of a tagged object are its own and those of the children that are reached. -/
theorem passes_object_iff (tagged : Tagged fields t) :
    Passes (.object fields) path report ↔ (path = [] ∧ PassesHere fields report) ∨
      ∃ s, t.kind = s.kind ∧ Clear fields s ∧ Below fields s path report := by
  refine ⟨?_, ?_⟩
  · rintro ⟨fields', hreached, hhere⟩
    cases hreached with
    | here => exact .inl ⟨rfl, hhere⟩
    | step tagged' kind child present clear rest =>
      obtain rfl := tagged.unique tagged'
      exact .inr ⟨_, kind, clear, _, _, rfl, child, present, fields', rest, hhere⟩
  · rintro (⟨rfl, hhere⟩ | ⟨s, kind, clear, u, rest, rfl, child, present, fields', hreached, hhere⟩)
    · exact ⟨fields, .here _, hhere⟩
    · exact ⟨fields', .step tagged kind child present clear hreached, hhere⟩

/-- Without a tag there is nothing to report. -/
theorem not_passes_of_untagged {d : Document}
    (h : ∀ fields t, d = .object fields → ¬ Tagged fields t) : ¬ Passes d path report := by
  rintro ⟨fields, hreached, k, ds, tagged, -⟩
  cases hreached with
  | here => exact h fields k.tag rfl tagged
  | step tagged' => exact h _ _ rfl tagged'

/-- An object that holds no list is reported by its children alone. -/
theorem passes_iff_below (tagged : Tagged fields t) (h : t.list? = none) :
    Passes (.object fields) path report ↔
      ∃ s, t.kind = s.kind ∧ Clear fields s ∧ Below fields s path report := by
  rw [passes_object_iff tagged]
  refine or_iff_right ?_
  rintro ⟨-, k, ds, tagged', -⟩
  obtain rfl := tagged'.unique tagged
  cases k <;> cases h

/-- An object with two single children is reported by these. -/
theorem passes_iff_two_below (s s' : Step) (tagged : Tagged fields t) (h : t.list? = none)
    (hsteps : ∀ r : Step, t.kind = r.kind ↔ r = s ∨ r = s') :
    Passes (.object fields) path report ↔
      Clear fields s ∧ Below fields s path report ∨
        Clear fields s' ∧ Below fields s' path report := by
  rw [passes_iff_below tagged h]
  simp only [hsteps]
  refine ⟨?_, ?_⟩
  · rintro ⟨_, rfl | rfl, hbelow⟩
    · exact .inl hbelow
    · exact .inr hbelow
  · rintro (hbelow | hbelow)
    · exact ⟨s, .inl rfl, hbelow⟩
    · exact ⟨s', .inr rfl, hbelow⟩

end

/-! ## Reports against expectations -/

/-- The event reports a list that passed. -/
def Event.isValidation : Event → Bool
  | .validated _ _ _ => true
  | _ => false

/-- Among the events the reports of passed lists are those that are expected, one for each path. -/
def Accounts (expected : List Step → Event → Prop) (events : List Event) : Prop :=
  ∃ entries : List (List Step × Event), (entries.map Prod.fst).Nodup ∧
    (∀ path report, (path, report) ∈ entries ↔ expected path report) ∧
    entries.map Prod.snd = events.filter Event.isValidation

/-- The computation reports no list. -/
def Traced.Quiet {α : Type} (x : Traced α) : Prop :=
  ∀ e ∈ x.events, e.isValidation = false

section

variable {expected expected' : List Step → Event → Prop} {events events' : List Event}

theorem Accounts.congr (h : Accounts expected events)
    (hiff : ∀ path report, expected path report ↔ expected' path report) :
    Accounts expected' events := by
  obtain ⟨entries, hnodup, hmem, hevents⟩ := h
  exact ⟨entries, hnodup, fun path report => (hmem path report).trans (hiff path report), hevents⟩

theorem accounts_nothing (h : ∀ e ∈ events, e.isValidation = false) :
    Accounts (fun _ _ => False) events := by
  refine ⟨[], List.nodup_nil, fun path report => ?_, ?_⟩
  · exact iff_of_false List.not_mem_nil not_false
  · have hnone : events.filter Event.isValidation = [] := by
      refine List.filter_eq_nil_iff.mpr fun e he => ?_
      rw [h e he]
      exact Bool.false_ne_true
    rw [hnone, List.map_nil]

/-- Accounts of different paths are put one behind the other. -/
theorem Accounts.append (h : Accounts expected events) (h' : Accounts expected' events')
    (apart : ∀ path report report', expected path report → ¬ expected' path report') :
    Accounts (fun path report => expected path report ∨ expected' path report)
      (events ++ events') := by
  obtain ⟨entries, hnodup, hmem, hevents⟩ := h
  obtain ⟨entries', hnodup', hmem', hevents'⟩ := h'
  refine ⟨entries ++ entries', ?_, ?_, ?_⟩
  · rw [List.map_append]
    refine List.nodup_append.mpr ⟨hnodup, hnodup', ?_⟩
    rintro path hpath _ hpath' rfl
    obtain ⟨⟨_, report⟩, hentry, rfl⟩ := List.mem_map.mp hpath
    obtain ⟨⟨_, report'⟩, hentry', heq⟩ := List.mem_map.mp hpath'
    obtain rfl : _ = _ := heq
    exact apart _ _ _ ((hmem _ _).mp hentry) ((hmem' _ _).mp hentry')
  · intro path report
    rw [List.mem_append, hmem, hmem']
  · rw [List.map_append, List.filter_append, hevents, hevents']

/-- The reports of a child are expected below the step to it. -/
theorem Accounts.below (h : Accounts expected events) (s : Step) :
    Accounts (fun path report => ∃ rest, path = s :: rest ∧ expected rest report) events := by
  obtain ⟨entries, hnodup, hmem, hevents⟩ := h
  refine ⟨entries.map fun entry => (s :: entry.1, entry.2), ?_, ?_, ?_⟩
  · have hpaths : (entries.map fun entry => (s :: entry.1, entry.2)).map Prod.fst =
        (entries.map Prod.fst).map (s :: ·) := by
      rw [List.map_map, List.map_map]
      rfl
    rw [hpaths]
    exact List.Pairwise.map _ (fun _ _ hne heq => hne (List.cons.inj heq).2) hnodup
  · intro path report
    rw [List.mem_map]
    refine ⟨?_, ?_⟩
    · rintro ⟨⟨rest, report'⟩, hentry, heq⟩
      obtain ⟨rfl, rfl⟩ := Prod.mk.inj heq
      exact ⟨rest, rfl, (hmem rest report').mp hentry⟩
    · rintro ⟨rest, rfl, hrest⟩
      exact ⟨(rest, report), (hmem rest report).mpr hrest, rfl⟩
  · rw [List.map_map]
    exact hevents

end

/-! ## Sequences -/

section

variable {α β : Type} {x : Traced α} {f : α → Traced β} {expected : List Step → Event → Prop}

/-- The reports of the second part are expected only if the first part succeeds. -/
theorem Accounts.bind {expected' : α → List Step → Event → Prop} (hx : Accounts expected x.events)
    (hf : ∀ a, x.outcome = .ok a → Accounts (expected' a) (f a).events)
    (apart : ∀ a path report report', expected path report → ¬ expected' a path report') :
    Accounts (fun path report => expected path report ∨
      ∃ a, x.outcome = .ok a ∧ expected' a path report) (x >>= f).events := by
  cases h : x.outcome with
  | ok a =>
    rw [Traced.events_bind_ok h]
    refine (hx.append (hf a h) (apart a)).congr fun path report => or_congr_right ?_
    refine ⟨fun he => ⟨a, rfl, he⟩, ?_⟩
    rintro ⟨_, heq, he⟩
    obtain rfl := Except.ok.inj heq
    exact he
  | error e =>
    rw [Traced.events_bind, h, List.append_nil]
    refine hx.congr fun path report => ⟨.inl, ?_⟩
    rintro (he | ⟨_, heq, -⟩)
    · exact he
    · cases heq

/-- Nothing is expected of a quiet second part. -/
theorem Accounts.bind_quiet (hx : Accounts expected x.events) (hf : ∀ a, (f a).Quiet) :
    Accounts expected (x >>= f).events := by
  have hbind := hx.bind (fun a _ => accounts_nothing (hf a)) (fun _ _ _ _ _ => not_false)
  refine hbind.congr fun path report => ⟨?_, .inl⟩
  rintro (he | ⟨_, -, he⟩)
  · exact he
  · exact he.elim

/-- Nothing is expected of a quiet first part, but it may fail. -/
theorem Traced.Quiet.bind_accounts (hx : x.Quiet)
    (hf : ∀ a, x.outcome = .ok a → Accounts expected (f a).events) :
    Accounts (fun path report => x.Succeeds ∧ expected path report) (x >>= f).events := by
  have hbind := (accounts_nothing hx).bind hf (fun _ _ _ _ he => he.elim)
  refine hbind.congr fun path report => ⟨?_, ?_⟩
  · rintro (he | ⟨a, ha, he⟩)
    · exact he.elim
    · exact ⟨⟨a, ha⟩, he⟩
  · rintro ⟨⟨a, ha⟩, he⟩
    exact .inr ⟨a, ha, he⟩

/-- After a quiet part that fails there is nothing to report. -/
theorem Traced.Quiet.bind_of_fails (hx : x.Quiet) (h : ¬ x.Succeeds) :
    Accounts (fun _ _ => False) (x >>= f).events := by
  rw [events_bind]
  cases hout : x.outcome with
  | ok a => exact absurd ⟨a, hout⟩ h
  | error e =>
    rw [List.append_nil]
    exact accounts_nothing hx

theorem Traced.quiet_pure (a : α) : (pure a : Traced α).Quiet :=
  fun _ he => absurd he List.not_mem_nil

theorem Traced.Quiet.bind (hx : x.Quiet) (hf : ∀ a, (f a).Quiet) : (x >>= f).Quiet := by
  intro e he
  rw [events_bind] at he
  rcases List.mem_append.mp he with he | he
  · exact hx e he
  · cases h : x.outcome with
    | ok a =>
      rw [h] at he
      exact hf a e he
    | error fault =>
      rw [h] at he
      cases he

/-- Warnings report no list. -/
theorem Traced.Plain.quiet (hx : x.Plain) : x.Quiet := by
  intro e he
  have hlevel := hx.warns e he
  cases e with
  | validated => cases hlevel
  | _ => rfl

end

/-! ## Checks -/

section

variable (c : Capability) (field : String)

theorem quiet_require (place : Place) (n : AnyNode) : (require c place n).Quiet := by
  rw [require]
  split
  · exact Traced.quiet_pure _
  · intro e he
    obtain rfl := List.mem_singleton.mp he
    rfl

theorem quiet_requireOptional (n : Option AnyNode) : (requireOptional c field n).Quiet := by
  cases n with
  | none => exact Traced.quiet_pure none
  | some n => exact (quiet_require c ⟨field, none⟩ n).bind fun m => Traced.quiet_pure _

theorem quiet_requireEntry (allowAbsent : Bool) (index : Nat) (n : Option AnyNode) :
    (requireEntry c field allowAbsent index n).Quiet := by
  cases n with
  | none =>
    cases allowAbsent with
    | true => exact Traced.quiet_pure none
    | false =>
      intro e he
      obtain rfl := List.mem_singleton.mp he
      rfl
  | some n => exact (quiet_require c ⟨field, some index⟩ n).bind fun m => Traced.quiet_pure _

theorem quiet_requireFrom (allowAbsent : Bool) (index : Nat) (ns : List (Option AnyNode)) :
    (requireFrom c field allowAbsent index ns).Quiet := by
  induction ns generalizing index with
  | nil => exact Traced.quiet_pure []
  | cons n rest ih =>
    refine (quiet_requireEntry c field allowAbsent index n).bind fun m => ?_
    exact (ih (index + 1)).bind fun ms => Traced.quiet_pure _

/-- The check of a list reports the list, if it passes. -/
theorem accounts_requireEntries (ns : List (Option AnyNode)) (allowAbsent : Bool) :
    Accounts (fun path report => path = [] ∧ (requireEntries c field ns allowAbsent).Succeeds ∧
      report = .validated field ns.length c) (requireEntries c field ns allowAbsent).events := by
  have hlast (ms : List (Option (Node (.only c)))) :
      Accounts (fun path report => path = [] ∧ report = .validated field ns.length c)
        (do Traced.report [.validated field ns.length c]; pure ms : Traced _).events := by
    refine ⟨[([], .validated field ns.length c)], List.pairwise_singleton _ _,
      fun path report => ?_, rfl⟩
    rw [List.mem_singleton, Prod.mk.injEq]
  have hall := (quiet_requireFrom c field allowAbsent 0 ns).bind_accounts fun ms _ => hlast ms
  refine hall.congr fun path report => ?_
  rw [Traced.Succeeds, Traced.Succeeds, outcome_requireEntries]
  exact and_left_comm

end

/-- A list passes when it is read and its check succeeds. -/
theorem Collection.passed_iff {k : Collection} {ds : List Document} :
    k.Passed ds ↔ ∃ ns, (Node.readEntries k.field 0 ds).outcome = .ok ns ∧
      (requireEntries k.capability k.field ns k.allowAbsent).Succeeds := by
  refine ⟨?_, ?_⟩
  · rintro ⟨hreadable, hfit⟩
    cases hns : (Node.readEntries k.field 0 ds).outcome with
    | error e =>
      obtain ⟨i, hi, -⟩ := readEntries_error_iff.mp hns
      exact absurd hi (hreadable i e)
    | ok ns =>
      refine ⟨ns, rfl, ?_⟩
      cases hms : (requireEntries k.capability k.field ns k.allowAbsent).outcome with
      | ok ms => exact ⟨ms, hms⟩
      | error e =>
        obtain ⟨i, hi, -⟩ := (requireEntries_error_iff_unfit hns).mp hms
        exact absurd hi (hfit i e)
  · rintro ⟨ns, hns, ms, hms⟩
    refine ⟨fun i e hi => not_unreadable_of_ok hns ⟨i, e, hi⟩, fun i e hi => ?_⟩
    exact (readAsChildren_of_ok hns hms).1 ⟨i, e, hi⟩

/-! ## Trees -/

namespace Node

/-- The reports of reading a document are those of the lists that passed, at every place. -/
def Accounted (d : Document) : Prop :=
  ∀ place : Place, Accounts (Passes d) (read place d).events

section

variable {fields : Fields}

theorem clear_step {k : Collection} {i : Nat} : Clear fields (k.step i) ↔ k.ReadUpTo fields i := by
  cases k <;> rfl

/-- The own list of a pattern passes when its entries are read and the check succeeds. -/
theorem passesHere_iff {k : Collection} {ds : List Document} {report : Event}
    (tagged : Tagged fields k.tag) (listed : Fields.value? k.field fields = some (.array ds)) :
    PassesHere fields report ↔ ∃ ns, (readEntries k.field 0 ds).outcome = .ok ns ∧
      (requireEntries k.capability k.field ns k.allowAbsent).Succeeds ∧
      report = .validated k.field ns.length k.capability := by
  have hlength (ns : List (Option AnyNode)) (hns : (readEntries k.field 0 ds).outcome = .ok ns) :
      ds.length = ns.length := by
    rw [readEntries_eq] at hns
    exact (Traced.forEach_ok_iff.mp hns).1
  refine ⟨?_, ?_⟩
  · rintro ⟨k', ds', tagged', listed', hpassed, rfl⟩
    obtain rfl := Collection.tag_inj (tagged'.unique tagged)
    obtain rfl := Document.array.inj (Option.some.inj (listed'.symm.trans listed))
    obtain ⟨ns, hns, hsucceeds⟩ := Collection.passed_iff.mp hpassed
    exact ⟨ns, hns, hsucceeds, by rw [hlength ns hns]⟩
  · rintro ⟨ns, hns, hsucceeds, rfl⟩
    refine ⟨k, ds, tagged, listed, Collection.passed_iff.mpr ⟨ns, hns, hsucceeds⟩, ?_⟩
    rw [hlength ns hns]

theorem accounts_readOptional {d : Option Document} (ih : ∀ u, d = some u → Accounted u) (s : Step)
    (place : Place) :
    Accounts (fun path report => ∃ u rest, path = s :: rest ∧ d = some u ∧ u ≠ .null ∧
      Passes u rest report) (readOptional place d).events := by
  cases d with
  | none =>
    refine (accounts_nothing (Traced.quiet_pure _)).congr fun path report => ⟨False.elim, ?_⟩
    rintro ⟨u, rest, -, hu, -⟩
    cases hu
  | some u =>
    by_cases hu : u = .null
    · subst hu
      refine (accounts_nothing (Traced.quiet_pure _)).congr fun path report => ⟨False.elim, ?_⟩
      rintro ⟨_, rest, -, ⟨⟩, hnull, -⟩
      exact hnull rfl
    · rw [readOptional_some place hu]
      have hread := (ih u rfl place).bind_quiet fun n => Traced.quiet_pure (some n)
      refine (hread.below s).congr fun path report => ⟨?_, ?_⟩
      · rintro ⟨rest, rfl, hrest⟩
        exact ⟨u, rest, rfl, rfl, hu, hrest⟩
      · rintro ⟨_, rest, rfl, ⟨⟩, -, hrest⟩
        exact ⟨rest, rfl, hrest⟩

/-- A single child is reported by what is below it; its check reports no list. -/
theorem accounts_readSlot
    (ih : ∀ place u, (Document.object fields).child? place = some u → Accounted u)
    (c : Capability) (field : String) (s : Step) (hplace : s.place = ⟨field, none⟩) :
    Accounts (Below fields s) (readSlot c field fields).events := by
  have hchild : (Document.object fields).child? s.place = Fields.value? field fields := by
    rw [hplace, Document.child?_field]
  have hread := accounts_readOptional (fun u hu => ih s.place u (hchild.trans hu)) s ⟨field, none⟩
  refine (hread.bind_quiet fun n => quiet_requireOptional c field n).congr fun path report => ?_
  rw [Below, hchild]

/-- The entries of a list are reported one by one, up to the first that cannot be read. -/
theorem accounts_readEntries (k : Collection) {ds : List Document} (ih : ∀ u ∈ ds, Accounted u)
    (index : Nat) :
    Accounts (fun path report => ∃ i u rest, path = k.step (index + i) :: rest ∧ ds[i]? = some u ∧
      u ≠ .null ∧ (∀ j < i, ∀ w, ds[j]? = some w →
        (readOptional ⟨k.field, some (index + j)⟩ (some w)).Succeeds) ∧ Passes u rest report)
      (readEntries k.field index ds).events := by
  rw [readEntries_eq]
  induction ds generalizing index with
  | nil =>
    refine (accounts_nothing (Traced.quiet_pure _)).congr fun path report => ⟨False.elim, ?_⟩
    rintro ⟨i, u, rest, -, hu, -⟩
    cases hu
  | cons d ds ihds =>
    have hfirst := accounts_readOptional (d := some d)
      (fun u hu => ih u (Option.some.inj hu ▸ List.mem_cons_self))
      (k.step index) ⟨k.field, some index⟩
    have hrest := ihds (fun u hu => ih u (List.mem_cons_of_mem _ hu)) (index + 1)
    have hall := hfirst.bind
      (fun n _ => hrest.bind_quiet fun ns => Traced.quiet_pure (n :: ns)) ?_
    · refine hall.congr fun path report => ⟨?_, ?_⟩
      · rintro (⟨u, rest, rfl, ⟨⟩, hnull, hpasses⟩ |
          ⟨n, hn, i, u, rest, rfl, hu, hnull, hbefore, hpasses⟩)
        · exact ⟨0, d, rest, rfl, rfl, hnull, fun j hj => absurd hj (Nat.not_lt_zero j), hpasses⟩
        · refine ⟨i + 1, u, rest, ?_, hu, hnull, ?_, hpasses⟩
          · rw [← Nat.add_assoc, Nat.add_right_comm]
          · rintro (_ | j) hj w hw
            · cases hw
              exact ⟨n, hn⟩
            · rw [← Nat.add_assoc, Nat.add_right_comm]
              exact hbefore j (Nat.lt_of_succ_lt_succ hj) w hw
      · rintro ⟨_ | i, u, rest, rfl, hu, hnull, hbefore, hpasses⟩
        · exact .inl ⟨u, rest, rfl, hu, hnull, hpasses⟩
        · obtain ⟨n, hn⟩ := hbefore 0 (Nat.succ_pos i) d rfl
          refine .inr ⟨n, hn, i, u, rest, ?_, hu, hnull, ?_, hpasses⟩
          · rw [Nat.add_right_comm, Nat.add_assoc]
          · intro j hj w hw
            rw [Nat.add_right_comm, Nat.add_assoc]
            exact hbefore (j + 1) (Nat.succ_lt_succ hj) w hw
    · -- the entries behind the first one have other indices
      rintro n path report report' ⟨u, rest, rfl, -⟩ ⟨i, u', rest', heq, -⟩
      have hindex := Collection.step_inj (List.cons.inj heq).1
      omega

theorem listed_of_child? {field : String} {i : Nat} {u : Document}
    (h : (Document.object fields).child? ⟨field, some i⟩ = some u) :
    ∃ ds, Fields.value? field fields = some (.array ds) := by
  obtain ⟨d, hd, hu⟩ := Option.bind_eq_some_iff.mp h
  cases d with
  | array ds => exact ⟨ds, hd⟩
  | _ => cases hu

/-- What is below the entries of a list is what is below the children of the pattern that holds
it. -/
theorem accounts_readEntries_below (k : Collection) {ds : List Document}
    (listed : Fields.value? k.field fields = some (.array ds))
    (ih : ∀ place u, (Document.object fields).child? place = some u → Accounted u) :
    Accounts
      (fun path report => ∃ s, k.tag.kind = s.kind ∧ Clear fields s ∧ Below fields s path report)
      (readEntries k.field 0 ds).events := by
  have hchild (i : Nat) : (Document.object fields).child? ⟨k.field, some i⟩ = ds[i]? :=
    Document.child?_entry listed i
  have hds : ∀ u ∈ ds, Accounted u := by
    intro u hu
    obtain ⟨i, hi⟩ := List.mem_iff_getElem?.mp hu
    exact ih _ u ((hchild i).trans hi)
  refine (accounts_readEntries k hds 0).congr fun path report => ?_
  simp only [Nat.zero_add, Collection.kind_eq_iff]
  refine ⟨?_, ?_⟩
  · rintro ⟨i, u, rest, rfl, hu, hnull, hbefore, hpasses⟩
    refine ⟨k.step i, ⟨i, rfl⟩, clear_step.mpr fun j hj w hw => ?_, u, rest, rfl, ?_, hnull,
      hpasses⟩
    · exact hbefore j hj w ((hchild j).symm.trans hw)
    · rw [Collection.place_step, hchild, hu]
  · rintro ⟨_, ⟨i, rfl⟩, hclear, u, rest, rfl, hu, hnull, hpasses⟩
    rw [Collection.place_step, hchild] at hu
    refine ⟨i, u, rest, rfl, hu, hnull, fun j hj w hw => ?_, hpasses⟩
    exact clear_step.mp hclear j hj w ((hchild j).trans hw)

/-- A pattern with a list is reported by what is below its entries, and by its own list if that
passes. -/
theorem accounts_readTagged_collection (k : Collection) (tagged : Tagged fields k.tag)
    (ih : ∀ place u, (Document.object fields).child? place = some u → Accounted u) :
    Accounts (Passes (.object fields)) (readTagged fields k.tag).events := by
  have hlocation (ms : List (Option (Node (.only k.capability)))) :
      (do let l ← readLocation k.tag.owner fields; pure (k.node l ms) : Traced AnyNode).Quiet :=
    (plain_readLocation k.tag.owner fields).quiet.bind fun l => Traced.quiet_pure _
  rw [readTagged_collection]
  by_cases hlisted : ∃ ds, Fields.value? k.field fields = some (.array ds)
  · obtain ⟨ds, listed⟩ := hlisted
    have hown (ns : List (Option AnyNode)) :=
      (accounts_requireEntries k.capability k.field ns k.allowAbsent).bind_quiet hlocation
    rw [readList_of_listed _ listed]
    have hall := (accounts_readEntries_below k listed ih).bind (fun ns _ => hown ns) ?_
    · refine hall.congr fun path report => ?_
      rw [passes_object_iff tagged, passesHere_iff tagged listed, or_comm]
      refine or_congr_left ⟨?_, ?_⟩
      · rintro ⟨ns, hns, hpath, hpassed, hreport⟩
        exact ⟨hpath, ns, hns, hpassed, hreport⟩
      · rintro ⟨hpath, ns, hns, hpassed, hreport⟩
        exact ⟨ns, hns, hpath, hpassed, hreport⟩
    · rintro ns path report report' ⟨s, -, -, u, rest, rfl, -⟩ ⟨hpath, -⟩
      cases hpath
  · -- without a list the reader ends before it has read or reported anything
    have hlist : (readList k.tag.owner k.field fields).Quiet := by
      rw [readList]
      split
      · next ds listed => exact absurd ⟨ds, listed⟩ hlisted
      · exact (plain_located_fail _ fields rfl).quiet
      · exact (plain_located_fail _ fields rfl).quiet
    have hfails : ¬ (readList k.tag.owner k.field fields).Succeeds := by
      rintro ⟨ns, hns⟩
      obtain ⟨ds, listed, -⟩ := readList_ok_iff.mp hns
      exact hlisted ⟨ds, listed⟩
    refine (hlist.bind_of_fails hfails).congr fun path report => iff_of_false not_false ?_
    rw [passes_object_iff tagged]
    rintro (⟨-, k', ds, tagged', listed, -⟩ | ⟨s, kind, -, u, rest, -, hu, -⟩)
    · obtain rfl := Collection.tag_inj (tagged'.unique tagged)
      exact hlisted ⟨ds, listed⟩
    · obtain ⟨i, rfl⟩ := Collection.kind_eq_iff.mp kind
      rw [Collection.place_step] at hu
      exact hlisted (listed_of_child? hu)

/-- Two single children are read one after the other, the second if the first is read and
admitted. -/
theorem accounts_two_slots
    (ih : ∀ place u, (Document.object fields).child? place = some u → Accounted u)
    {first second : Capability} {field field' : String} (s s' : Step)
    (hplace : s.place = ⟨field, none⟩) (hplace' : s'.place = ⟨field', none⟩) (hne : s ≠ s')
    {f : Option (Node (.only first)) → Option (Node (.only second)) → Traced AnyNode}
    (hf : ∀ m n, (f m n).Quiet) :
    Accounts (fun path report => Below fields s path report ∨
        (readSlot first field fields).Succeeds ∧ Below fields s' path report)
      (do let m ← readSlot first field fields
          let n ← readSlot second field' fields
          f m n : Traced AnyNode).events := by
  have hsecond (m : Option (Node (.only first))) :=
    (accounts_readSlot ih second field' s' hplace').bind_quiet (hf m)
  have hall := (accounts_readSlot ih first field s hplace).bind (fun m _ => hsecond m) ?_
  · refine hall.congr fun path report => or_congr_right ⟨?_, ?_⟩
    · rintro ⟨m, hm, hbelow⟩
      exact ⟨⟨m, hm⟩, hbelow⟩
    · rintro ⟨⟨m, hm⟩, hbelow⟩
      exact ⟨m, hm, hbelow⟩
  · rintro m path report report' ⟨u, rest, rfl, -⟩ ⟨u', rest', heq, -⟩
    exact hne (List.cons.inj heq).1

/-- An object without children reports nothing. -/
theorem accounts_readTagged_leaf {t : Tag} (tagged : Tagged fields t) (h : t.list? = none)
    (hleaf : ∀ s : Step, t.kind ≠ s.kind) (hquiet : (readTagged fields t).Quiet) :
    Accounts (Passes (.object fields)) (readTagged fields t).events := by
  refine (accounts_nothing hquiet).congr fun path report => ?_
  rw [passes_iff_below tagged h]
  refine iff_of_false not_false ?_
  rintro ⟨s, kind, -⟩
  exact hleaf s kind

/-- The reports of an object are those of the lists that passed, if this holds of its children. -/
theorem accounts_readTagged {t : Tag} (tagged : Tagged fields t)
    (ih : ∀ place u, (Document.object fields).child? place = some u → Accounted u) :
    Accounts (Passes (.object fields)) (readTagged fields t).events := by
  have hlocation (owner : String) : (readLocation owner fields).Quiet :=
    (plain_readLocation owner fields).quiet
  have hflag (owner field : String) : (readFlag owner field fields).Quiet :=
    (plain_readFlag owner field fields).quiet
  have htext (owner field : String) (l : Location) : (readString owner field fields l).Quiet :=
    (plain_readString owner field fields l).quiet
  cases t with
  | identifier =>
    refine accounts_readTagged_leaf tagged rfl (by rintro (_ | _) ⟨⟩) ?_
    refine (hlocation "Identifier").bind fun l => (htext "Identifier" "name" l).bind fun name => ?_
    exact (hlocation "Identifier").bind fun location => Traced.quiet_pure _
  | literal =>
    refine accounts_readTagged_leaf tagged rfl (by rintro (_ | _) ⟨⟩) ?_
    refine (hlocation "Literal").bind fun l => ?_
    refine (plain_readLiteralValue fields l).quiet.bind fun value => ?_
    refine (htext "Literal" "raw" l).bind fun raw => ?_
    exact (hlocation "Literal").bind fun location => Traced.quiet_pure _
  | memberExpression =>
    refine (accounts_two_slots ih .object .property rfl rfl (by rintro ⟨⟩)
      fun object property => ?_).congr
      fun path report => ?_
    · refine (hflag "MemberExpression" "computed").bind fun computed => ?_
      exact (hlocation "MemberExpression").bind fun location => Traced.quiet_pure _
    · have hsteps (r : Step) : Kind.memberExpression = r.kind ↔ r = .object ∨ r = .property := by
        cases r <;> simp [Step.kind]
      rw [passes_iff_two_below .object .property tagged rfl hsteps]
      exact or_congr_left (iff_of_eq (true_and _)).symm
  | arrayPattern => exact accounts_readTagged_collection .elements tagged ih
  | objectPattern => exact accounts_readTagged_collection .properties tagged ih
  | property | assignmentProperty =>
    refine ((plain_refuseAccessor fields).quiet.bind_accounts fun _ _ =>
      (plain_refuseMethod fields).quiet.bind_accounts fun _ _ =>
        accounts_two_slots ih .key .value rfl rfl (by rintro ⟨⟩) fun key value => ?_).congr
      fun path report => ?_
    · refine (hflag "Property" "shorthand").bind fun shorthand => ?_
      refine (hflag "Property" "computed").bind fun computed => ?_
      exact (hlocation "Property").bind fun location => Traced.quiet_pure _
    · have hsteps (r : Step) : Kind.assignmentProperty = r.kind ↔ r = .key ∨ r = .value := by
        cases r <;> simp [Step.kind]
      rw [passes_iff_two_below .key .value tagged rfl hsteps]
      refine ⟨?_, ?_⟩
      · rintro ⟨haccessor, hmethod, hbelow | ⟨hclear, hbelow⟩⟩
        · exact .inl ⟨⟨haccessor, hmethod⟩, hbelow⟩
        · exact .inr ⟨⟨haccessor, hmethod, hclear⟩, hbelow⟩
      · rintro (⟨⟨haccessor, hmethod⟩, hbelow⟩ | ⟨⟨haccessor, hmethod, hclear⟩, hbelow⟩)
        · exact ⟨haccessor, hmethod, .inl hbelow⟩
        · exact ⟨haccessor, hmethod, .inr ⟨hclear, hbelow⟩⟩
  | assignmentPattern =>
    refine (accounts_two_slots ih .left .right rfl rfl (by rintro ⟨⟩) fun left right => ?_).congr
      fun path report => ?_
    · exact (hlocation "AssignmentPattern").bind fun location => Traced.quiet_pure _
    · have hsteps (r : Step) : Kind.assignmentPattern = r.kind ↔ r = .left ∨ r = .right := by
        cases r <;> simp [Step.kind]
      rw [passes_iff_two_below .left .right tagged rfl hsteps]
      exact or_congr_left (iff_of_eq (true_and _)).symm
  | restElement =>
    refine ((accounts_readSlot ih .pattern "argument" .argument rfl).bind_quiet
      fun argument => ?_).congr
      fun path report => ?_
    · exact (hlocation "RestElement").bind fun location => Traced.quiet_pure _
    · rw [passes_iff_below tagged rfl]
      refine ⟨fun hbelow => ⟨.argument, rfl, trivial, hbelow⟩, ?_⟩
      rintro ⟨s, kind, hclear, hbelow⟩
      cases s <;> cases kind
      exact hbelow

end

/-- A document without a tag is refused before any list is met. -/
theorem quiet_read_of_untagged (place : Place) {d : Document}
    (h : ∀ fields t, d = .object fields → ¬ Tagged fields t) : (read place d).Quiet := by
  cases d with
  | object fields =>
    rw [read_object]
    split
    · next tag htag =>
      have hannounced : (Traced.report [.readingNode tag place.field]).Quiet := by
        intro e he
        obtain rfl := List.mem_singleton.mp he
        rfl
      refine hannounced.bind fun _ => ?_
      split
      · next t ht =>
        rw [← Tag.ofName?_eq_some_iff.mp ht] at htag
        exact absurd htag (h fields t rfl)
      · exact (plain_located_fail "node" fields rfl).quiet
    · exact (Traced.plain_fail rfl _).quiet
  | _ => exact (Traced.plain_fail rfl _).quiet

/-- The reports of reading a document are those of the lists that passed. -/
theorem accounted (d : Document) : Accounted d := by
  induction d using Document.childInduction with
  | step d ih =>
    intro place
    by_cases htagged : ∃ fields t, d = .object fields ∧ Tagged fields t
    · obtain ⟨fields, t, rfl, tagged⟩ := htagged
      rw [events_read_tagged place tagged]
      obtain ⟨entries, hnodup, hmem, hevents⟩ := accounts_readTagged tagged ih
      exact ⟨entries, hnodup, hmem, hevents⟩
    · have huntagged : ∀ fields t, d = .object fields → ¬ Tagged fields t :=
        fun fields t hd tagged => htagged ⟨fields, t, hd, tagged⟩
      refine (accounts_nothing (quiet_read_of_untagged place huntagged)).congr fun path report => ?_
      exact iff_of_false not_false (not_passes_of_untagged huntagged)

/-- **What an import reports of its checks.** A refusal is reported exactly when the import ends
with one; its report says what the fault says, it is the only one, and it is the last of all events.
The lists that are reported as passed are those that the import got to and whose entries were all
read and all admitted, each of them once, also when the import fails afterwards. -/
theorem reports_ofDocument (d : Document) :
    ((∃ e ∈ (ofDocument d).events, e.level = .debug) ↔
        ∃ fault report, (ofDocument d).outcome = .error fault ∧ fault.cause.report? = some report) ∧
      (∀ fault report, (ofDocument d).outcome = .error fault → fault.cause.report? = some report →
        ∃ earlier, (ofDocument d).events = earlier ++ [report] ∧ ∀ e ∈ earlier, e.level ≠ .debug) ∧
      ∃ entries : List (List Step × Event), (entries.map Prod.fst).Nodup ∧
        (∀ path report, (path, report) ∈ entries ↔ Passes d path report) ∧
        entries.map Prod.snd = (ofDocument d).events.filter Event.isValidation := by
  obtain ⟨hrefused, hlast⟩ := (candid_read d .root).debug_iff
  exact ⟨hrefused, hlast, accounted d .root⟩

/-- In `[[a], null]` the inner list has passed when the outer one is refused for its literal. -/
example : (ofDocument (.object [("type", .string "ArrayPattern"), ("elements", .array [
      .object [("type", .string "ArrayPattern"), ("elements", .array [
        .object [("type", .string "Identifier"), ("name", .string "a")]])],
      .object [("type", .string "Literal"), ("value", .null), ("raw", .string "null")]])])).events =
    [.readingNode "ArrayPattern" "root", .readingNode "ArrayPattern" "elements",
      .readingNode "Identifier" "elements", .validated "elements" 1 .pattern,
      .readingNode "Literal" "elements",
      .lacksCapability ⟨"elements", some 1⟩ .pattern .literal] := rfl

end Node

end PatternTree
