import PatternTree.Proofs.FirstFault
import PatternTree.Proofs.Verdict

/-!
# Which fault of a list is reported

A pattern with a list of children can have many faults at once: entries that are no trees, trees
that may not stand there, and a location that is malformed. The list is read to its end before any
entry is checked, and the location is read last.

* An entry is `Unreadable` when reading it fails, and `Unfit` when it is read and the check refuses
  it.
* The fault of the least index counts (`FirstOf`). The first unreadable entry comes before every
  unfit one, also before those in front of it, and the location comes behind both.
-/

namespace PatternTree

/-! ## Faults by index -/

namespace Collection

/-- An entry that is not null cannot be read in its place. -/
def Unreadable (k : Collection) (ds : List Document) (i : Nat) (e : Fault) : Prop :=
  ∃ d, ds[i]? = some d ∧ d ≠ .null ∧ (Node.read ⟨k.field, some i⟩ d).outcome = .error e

/-- An entry is null or can be read in its place, and may not stand there. -/
def Unfit (k : Collection) (ds : List Document) (i : Nat) (e : Fault) : Prop :=
  ∃ d n, ds[i]? = some d ∧ (Node.readOptional ⟨k.field, some i⟩ (some d)).outcome = .ok n ∧
    Offends k.capability k.allowAbsent n ∧ e = offence k.capability k.field i n

/-- The entries are read as these children, one by one. -/
def ReadAsChildren (k : Collection) (ds : List Document)
    (ms : List (Option (Node (.only k.capability)))) : Prop :=
  ds.length = ms.length ∧ ∀ i d m, ds[i]? = some d → ms[i]? = some m →
    (Node.readOptional ⟨k.field, some i⟩ (some d)).outcome = .ok (m.map Node.widen)

end Collection

/-! ## Unreadable entries -/

section

variable {k : Collection} {ds : List Document} {ns : List (Option AnyNode)} {i : Nat} {e : Fault}

/-- An entry is unreadable when reading it as an optional child fails. -/
theorem unreadable_iff : k.Unreadable ds i e ↔
    ∃ d, ds[i]? = some d ∧ (Node.readOptional ⟨k.field, some i⟩ (some d)).outcome = .error e := by
  refine ⟨?_, ?_⟩
  · rintro ⟨d, hd, hnull, he⟩
    refine ⟨d, hd, ?_⟩
    rw [Node.readOptional_some _ hnull]
    exact Traced.outcome_bind_error he _
  · rintro ⟨d, hd, he⟩
    obtain ⟨u, hu, hnull, hread⟩ := readOptional_error he
    obtain rfl := Option.some.inj hu
    exact ⟨d, hd, hnull, hread⟩

/-- An entry that is not unreadable is read. -/
theorem exists_readOptional_ok {d : Document} (hd : ds[i]? = some d)
    (h : ∀ e, ¬ k.Unreadable ds i e) :
    ∃ n, (Node.readOptional ⟨k.field, some i⟩ (some d)).outcome = .ok n := by
  cases hread : (Node.readOptional ⟨k.field, some i⟩ (some d)).outcome with
  | ok n => exact ⟨n, rfl⟩
  | error e => exact absurd (unreadable_iff.mpr ⟨d, hd, hread⟩) (h e)

/-- A list of entries fails with its first unreadable one. -/
theorem readEntries_error_iff :
    (Node.readEntries k.field 0 ds).outcome = .error e ↔ FirstOf (k.Unreadable ds) e := by
  rw [Node.readEntries_eq, Traced.forEach_error_iff]
  simp only [Nat.zero_add]
  refine ⟨?_, ?_⟩
  · rintro ⟨i, d, hd, he, hbefore⟩
    refine ⟨i, unreadable_iff.mpr ⟨d, hd, he⟩, ?_⟩
    intro j hj e' hunreadable
    obtain ⟨d', hd', he'⟩ := unreadable_iff.mp hunreadable
    obtain ⟨n, hn⟩ := hbefore j hj d' hd'
    rw [hn] at he'
    cases he'
  · rintro ⟨i, hunreadable, hbefore⟩
    obtain ⟨d, hd, he⟩ := unreadable_iff.mp hunreadable
    exact ⟨i, d, hd, he, fun j hj d' hd' => exists_readOptional_ok hd' (hbefore j hj)⟩

/-- No entry of a list that was read is unreadable. -/
theorem not_unreadable_of_ok (hns : (Node.readEntries k.field 0 ds).outcome = .ok ns) :
    ¬ ∃ i e, k.Unreadable ds i e := by
  rintro ⟨i, e, hunreadable⟩
  obtain ⟨d, hd, he⟩ := unreadable_iff.mp hunreadable
  rw [Node.readEntries_eq] at hns
  obtain ⟨n, -, hn⟩ := Traced.forEach_ok_result hns hd
  rw [Nat.zero_add, he] at hn
  cases hn

/-! ## Unfit entries -/

/-- The unfit entries of a list that was read are the offenders among its candidates. -/
theorem unfit_iff (hns : (Node.readEntries k.field 0 ds).outcome = .ok ns) :
    k.Unfit ds i e ↔ ∃ n, ns[i]? = some n ∧ Offends k.capability k.allowAbsent n ∧
      e = offence k.capability k.field i n := by
  rw [Node.readEntries_eq] at hns
  refine ⟨?_, ?_⟩
  · rintro ⟨d, n, hd, hn, hoffends, he⟩
    obtain ⟨n', hn', hread⟩ := Traced.forEach_ok_result hns hd
    rw [Nat.zero_add, hn] at hread
    obtain rfl := Except.ok.inj hread
    exact ⟨n, hn', hoffends, he⟩
  · rintro ⟨n, hn, hoffends, he⟩
    obtain ⟨d, hd, hread⟩ := Traced.forEach_ok_source hns hn
    rw [Nat.zero_add] at hread
    exact ⟨d, n, hd, hread, hoffends, he⟩

/-- A list that was read is refused for its first unfit entry. -/
theorem requireEntries_error_iff_unfit (hns : (Node.readEntries k.field 0 ds).outcome = .ok ns) :
    (requireEntries k.capability k.field ns k.allowAbsent).outcome = .error e ↔
      FirstOf (k.Unfit ds) e := by
  rw [requireEntries_error_iff]
  refine ⟨?_, ?_⟩
  · rintro ⟨i, n, hn, hoffends, hbefore, he⟩
    refine ⟨i, (unfit_iff hns).mpr ⟨n, hn, hoffends, he⟩, ?_⟩
    intro j hj e' hunfit
    obtain ⟨m, hm, hoffends', -⟩ := (unfit_iff hns).mp hunfit
    exact hbefore j hj m hm hoffends'
  · rintro ⟨i, hunfit, hbefore⟩
    obtain ⟨n, hn, hoffends, he⟩ := (unfit_iff hns).mp hunfit
    refine ⟨i, n, hn, hoffends, ?_, he⟩
    intro j hj m hm hoffends'
    exact hbefore j hj _ ((unfit_iff hns).mpr ⟨m, hm, hoffends', rfl⟩)

/-- No entry of a list that passed is unfit, and the list holds what its entries are read as. -/
theorem readAsChildren_of_ok {ms : List (Option (Node (.only k.capability)))}
    (hns : (Node.readEntries k.field 0 ds).outcome = .ok ns)
    (hms : (requireEntries k.capability k.field ns k.allowAbsent).outcome = .ok ms) :
    (¬ ∃ i e, k.Unfit ds i e) ∧ k.ReadAsChildren ds ms := by
  refine ⟨?_, ?_⟩
  · rintro ⟨i, e, hunfit⟩
    obtain ⟨n, hn, hoffends, -⟩ := (unfit_iff hns).mp hunfit
    exact exists_requireEntries_ok_iff.mp ⟨ms, hms⟩ n (List.mem_of_getElem? hn) hoffends
  · rw [outcome_requireEntries, requireFrom_ok_iff] at hms
    obtain ⟨rfl, -⟩ := hms
    rw [Node.readEntries_eq, Traced.forEach_ok_iff] at hns
    obtain ⟨hlength, heach⟩ := hns
    refine ⟨hlength.trans (List.length_map _), ?_⟩
    intro i d m hd hm
    have hread := heach i d (m.map Node.widen) hd (by rw [List.getElem?_map, hm]; rfl)
    rw [Nat.zero_add] at hread
    exact hread

end

/-! ## Patterns -/

namespace Node

/-- **Which fault is reported.** A pattern whose list is an array, at any place. If entries are
unreadable, the fault of the first of them is reported. If none is, but some are unfit, it is the
fault of the first of those. The location of the pattern counts only when neither is the case: it is
malformed, and then its fault is reported, or it denotes a location, and then the pattern is read,
with what its entries are read as. -/
theorem read_collection (k : Collection) (place : Place) {fields : Fields} {ds : List Document}
    (tagged : Tagged fields k.tag) (listed : Fields.value? k.field fields = some (.array ds)) :
    ((∃ i e, k.Unreadable ds i e) → ∃ e, FirstOf (k.Unreadable ds) e ∧
        (read place (.object fields)).outcome = .error e) ∧
      ((¬ ∃ i e, k.Unreadable ds i e) → (∃ i e, k.Unfit ds i e) → ∃ e, FirstOf (k.Unfit ds) e ∧
        (read place (.object fields)).outcome = .error e) ∧
      ((¬ ∃ i e, k.Unreadable ds i e) → (¬ ∃ i e, k.Unfit ds i e) →
        (∀ v e, Fields.value? "location" fields = some v → LocationFault k.tag.owner v e →
          (read place (.object fields)).outcome = .error e) ∧
        (∀ l, DenotesLocation (Fields.value? "location" fields) l → ∃ ms, k.ReadAsChildren ds ms ∧
          (read place (.object fields)).outcome = .ok (k.node l ms)) ∧
        ((∃ v e, Fields.value? "location" fields = some v ∧ LocationFault k.tag.owner v e) ∨
          ∃ l, DenotesLocation (Fields.value? "location" fields) l)) := by
  rw [outcome_read_tagged place tagged, readTagged_collection, readList_of_listed _ listed]
  cases hns : (readEntries k.field 0 ds).outcome with
  | error e =>
    -- an unreadable entry ends the reader before anything is checked
    have hfirst := readEntries_error_iff.mp hns
    refine ⟨fun _ => ⟨e, hfirst, Traced.outcome_bind_error hns _⟩, ?_, ?_⟩
    · intro hno
      exact absurd hfirst.exists_faulty hno
    · intro hno
      exact absurd hfirst.exists_faulty hno
  | ok ns =>
    rw [Traced.outcome_bind_ok hns]
    refine ⟨fun hsome => absurd hsome (not_unreadable_of_ok hns), ?_⟩
    cases hms : (requireEntries k.capability k.field ns k.allowAbsent).outcome with
    | error e =>
      have hfirst := (requireEntries_error_iff_unfit hns).mp hms
      refine ⟨fun _ _ => ⟨e, hfirst, Traced.outcome_bind_error hms _⟩, ?_⟩
      intro _ hno
      exact absurd hfirst.exists_faulty hno
    | ok ms =>
      obtain ⟨hfit, hchildren⟩ := readAsChildren_of_ok hns hms
      rw [Traced.outcome_bind_ok hms]
      refine ⟨fun _ hsome => absurd hsome hfit,
        fun _ _ => ⟨?_, ?_, locationFault_or_denotes k.tag.owner fields⟩⟩
      · intro v e hv hfault
        exact Traced.outcome_bind_error (readLocation_error_iff.mpr ⟨v, hv, hfault⟩) _
      · intro l hl
        refine ⟨ms, hchildren, ?_⟩
        rw [Traced.outcome_bind_ok (readLocation_ok_iff.mpr hl)]
        rfl

/-- The fields of an object pattern with a malformed location and the given entries. -/
def crowded (entries : List Document) : Fields :=
  [("type", .string "ObjectPattern"), ("location", .bool true), ("properties", .array entries)]

/-- A name, which is no entry of an object pattern. -/
def strayName : Document :=
  .object [("type", .string "Identifier"), ("name", .string "a")]

/-- A null, a name, a text and a truth value as entries: the text is reported, being the first that
is no node. Without the last two it is the null, and without any entries the location. -/
theorem crowded_reported :
    (∃ e, FirstOf (Collection.properties.Unreadable
          [.null, strayName, .string "b", .bool false]) e ∧
        e = ⟨.notANode ⟨"properties", some 2⟩, .unset⟩ ∧
        (read .root (.object (crowded [.null, strayName, .string "b", .bool false]))).outcome =
          .error e) ∧
      (∃ e, FirstOf (Collection.properties.Unfit [.null, strayName]) e ∧
        e = ⟨.absentElement "properties" 0, .unset⟩ ∧
        (read .root (.object (crowded [.null, strayName]))).outcome = .error e) ∧
      (read .root (.object (crowded []))).outcome =
        .error ⟨.invalidField "ObjectPattern" "location" "an object", .unset⟩ := by
  have tagged (entries : List Document) : Tagged (crowded entries) Collection.properties.tag := rfl
  have listed (entries : List Document) :
      Fields.value? Collection.properties.field (crowded entries) = some (.array entries) := rfl
  refine ⟨?_, ?_, ?_⟩
  · have hunreadable : ∃ i e, Collection.properties.Unreadable
        [.null, strayName, .string "b", .bool false] i e :=
      ⟨2, _, .string "b", rfl, Document.noConfusion, rfl⟩
    obtain ⟨e, hfirst, he⟩ :=
      (read_collection .properties .root (tagged _) (listed _)).1 hunreadable
    exact ⟨e, hfirst, (Except.error.inj he).symm, he⟩
  · have hns : (readEntries Collection.properties.field 0 [.null, strayName]).outcome =
        .ok [none, some (.identifier rfl { name := "a" })] := rfl
    have hunfit : ∃ i e, Collection.properties.Unfit [.null, strayName] i e :=
      ⟨0, _, .null, none, rfl, rfl, rfl, rfl⟩
    obtain ⟨e, hfirst, he⟩ := (read_collection .properties .root (tagged _) (listed _)).2.1
      (not_unreadable_of_ok hns) hunfit
    exact ⟨e, hfirst, (Except.error.inj he).symm, he⟩
  · have hns : (readEntries Collection.properties.field 0 []).outcome = .ok [] := rfl
    obtain ⟨hlocation, -⟩ := (read_collection .properties .root (tagged []) (listed [])).2.2
      (not_unreadable_of_ok hns) (readAsChildren_of_ok hns rfl).1
    have hfault : LocationFault "ObjectPattern" (.bool true)
        ⟨.invalidField "ObjectPattern" "location" "an object", .unset⟩ :=
      .notAnObject Document.noConfusion fun _ => Document.noConfusion
    exact hlocation (.bool true) _ rfl hfault

end Node

end PatternTree
