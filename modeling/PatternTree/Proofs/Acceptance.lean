import PatternTree.Proofs.Denotation

/-!
# The reader accepts exactly what denotes a tree

Every reader of the import is matched with its relation: it succeeds exactly on what denotes
something, and its result is what is denoted. For the leaves this is a look at their cases. For
trees it is an induction over the values at the places of a document, which serves both directions
at once: a rule of `Denotes` and the reader of its tag go through the same fields.
-/

namespace PatternTree

/-! ## Leaves -/

theorem readCoordinate_ok_iff {owner field : String} {fields : Fields} {k : UInt32} :
    (readCoordinate owner field fields).outcome = .ok k ↔
      Fields.value? field fields = some (.number (.integer k.toNat)) := by
  rw [readCoordinate]
  split
  · next n hn =>
    rw [hn, Option.some.injEq, Document.number.injEq, Numeral.integer.injEq]
    split
    · next hr =>
      rw [Traced.outcome_pure, Except.ok.injEq]
      refine ⟨?_, ?_⟩
      · -- the number is in range, so nothing of it is cut
        rintro rfl
        rw [UInt32.toNat_ofNat_of_lt' (show n.toNat < 0x100000000 by omega)]
        omega
      · intro hk
        rw [hk, Int.toNat_natCast, UInt32.ofNat_toNat]
    · next hr =>
      have := k.toNat_lt
      refine iff_of_false (by simp) ?_
      omega
  · next hn => exact iff_of_false (by simp) (hn _)

theorem readPosition_ok_iff {owner : String} {d : Option Document} {p : Option Position} :
    (readPosition owner d).outcome = .ok p ↔ DenotesPosition d p := by
  refine ⟨?_, ?_⟩
  · intro h
    unfold readPosition at h
    split at h
    · cases h
      exact .missing
    · cases h
      exact .null
    · next fields =>
      simp only [Traced.bind_ok_iff, readCoordinate_ok_iff] at h
      obtain ⟨line, hline, column, hcolumn, offset, hoffset, hp⟩ := h
      cases hp
      exact .object hline hcolumn hoffset
    · cases h
  · intro h
    cases h with
    | missing => rfl
    | null => rfl
    | object line column offset =>
      simp only [readPosition, Traced.bind_ok_iff, readCoordinate_ok_iff]
      exact ⟨_, line, _, column, _, offset, rfl⟩

/-- An end that was unset is afterwards what there is a position for. -/
theorem outcome_setOptional_start (p : Option Position) :
    (Location.unset.setOptional .start p).outcome = .ok ⟨p, none⟩ := by
  cases p <;> rfl

theorem outcome_setOptional_stop (s p : Option Position) :
    (Location.setOptional ⟨s, none⟩ .stop p).outcome = .ok ⟨s, p⟩ := by
  cases p <;> rfl

theorem readLocation_ok_iff {owner : String} {fields : Fields} {l : Location} :
    (readLocation owner fields).outcome = .ok l ↔
      DenotesLocation (Fields.value? "location" fields) l := by
  refine ⟨?_, ?_⟩
  · intro h
    rw [readLocation] at h
    split at h
    · next hl =>
      rw [hl]
      cases h
      exact .missing
    · next hl =>
      rw [hl]
      cases h
      exact .null
    · next ends hl =>
      rw [hl]
      simp only [Traced.bind_ok_iff, readPosition_ok_iff, outcome_setOptional_start] at h
      obtain ⟨start, hstart, _, hset, stop, hstop, hl'⟩ := h
      cases hset
      rw [outcome_setOptional_stop] at hl'
      cases hl'
      exact .object hstart hstop
    · cases h
  · intro h
    rw [readLocation]
    generalize Fields.value? "location" fields = d at h
    cases h with
    | missing => rfl
    | null => rfl
    | object start stop =>
      simp only [Traced.bind_ok_iff, readPosition_ok_iff, outcome_setOptional_start]
      exact ⟨_, start, _, rfl, _, stop, outcome_setOptional_stop _ _⟩

theorem readString_ok_iff {owner field : String} {fields : Fields} {l : Location} {s : String} :
    (readString owner field fields l).outcome = .ok s ↔
      Fields.value? field fields = some (.string s) := by
  rw [readString]
  cases Fields.value? field fields with
  | none => simp
  | some d => cases d <;> simp

theorem readFlag_ok_iff {owner field : String} {fields : Fields} {b : Bool} :
    (readFlag owner field fields).outcome = .ok b ↔
      DenotesFlag (Fields.value? field fields) b := by
  refine ⟨?_, ?_⟩
  · intro h
    rw [readFlag] at h
    split at h
    · next hd =>
      rw [hd]
      cases h
      exact .missing
    · next hd =>
      rw [hd]
      cases h
      exact .bool _
    · simp [Traced.bind_ok_iff] at h
  · intro h
    rw [readFlag]
    generalize Fields.value? field fields = d at h
    cases h with
    | missing => rfl
    | bool b => rfl

theorem readLiteralValue_ok_iff {fields : Fields} {l : Location} {v : LiteralValue} :
    (readLiteralValue fields l).outcome = .ok v ↔
      ∃ d, Fields.value? "value" fields = some d ∧ DenotesValue d v := by
  refine ⟨?_, ?_⟩
  · intro h
    rw [readLiteralValue] at h
    split at h
    · cases h
    · next hd =>
      cases h
      exact ⟨_, hd, .null⟩
    · next b hd =>
      cases h
      exact ⟨_, hd, .bool b⟩
    · next s hd =>
      cases h
      exact ⟨_, hd, .string s⟩
    · next n hd =>
      cases h
      exact ⟨_, hd, .number n⟩
    · cases h
  · rintro ⟨d, hd, hv⟩
    rw [readLiteralValue]
    rw [hd]
    cases hv <;> rfl

theorem refuseAccessor_ok_iff {fields : Fields} :
    (refuseAccessor fields).outcome = .ok () ↔
      Fields.value? "kind" fields = none ∨ Fields.value? "kind" fields = some (.string "init") := by
  rw [refuseAccessor]
  split
  · next h => simp [h]
  · next h => simp [h]
  · next d hinit hd =>
    rw [hd]
    simpa [Traced.bind_ok_iff] using hinit

theorem refuseMethod_ok_iff {fields : Fields} :
    (refuseMethod fields).outcome = .ok () ↔
      DenotesFlag (Fields.value? "method" fields) false := by
  simp only [refuseMethod, Traced.bind_ok_iff, readFlag_ok_iff]
  refine ⟨?_, ?_⟩
  · rintro ⟨b, hb, h⟩
    cases b with
    | false => exact hb
    | true => simp [Traced.bind_ok_iff] at h
  · intro h
    exact ⟨false, h, rfl⟩

/-! ## Trees -/

/-- The reader gives the tree that a document denotes, at every place, and no other. -/
def ReadExactly (d : Document) : Prop :=
  ∀ (place : Place) (n : AnyNode), (Node.read place d).outcome = .ok n ↔ Denotes d n

namespace Node

variable {c : Capability} {field : String} {fields : Fields}

theorem readOptional_ok_iff (place : Place) {d : Option Document} {n : Option (Node (.only c))}
    (ih : ∀ u, d = some u → ReadExactly u) :
    (readOptional place d).outcome = .ok (n.map widen) ↔ DenotesChild d n := by
  refine ⟨?_, ?_⟩
  · intro h
    cases d with
    | none =>
      cases n with
      | none => exact .missing
      | some n => cases h
    | some d =>
      by_cases hd : d = .null
      · subst hd
        cases n with
        | none => exact .null
        | some n => cases h
      · rw [readOptional_some place hd, Traced.bind_ok_iff] at h
        obtain ⟨m, hm, hn⟩ := h
        cases n with
        | none => cases hn
        | some n =>
          cases hn
          exact .present ((ih d rfl place _).mp hm)
  · intro h
    cases h with
    | missing => rfl
    | null => rfl
    | @present _ d n tree =>
      have hd : d ≠ .null := by
        rintro rfl
        cases tree
      rw [readOptional_some place hd, Traced.bind_ok_iff]
      exact ⟨n.widen, (ih d rfl place _).mpr tree, rfl⟩

theorem readSlot_ok_iff {n : Option (Node (.only c))}
    (ih : ∀ place u, (Document.object fields).child? place = some u → ReadExactly u) :
    (readSlot c field fields).outcome = .ok n ↔ DenotesChild (Fields.value? field fields) n := by
  have hchild : ∀ u, Fields.value? field fields = some u → ReadExactly u := by
    intro u hu
    rw [← Document.child?_field] at hu
    exact ih _ u hu
  rw [← readOptional_ok_iff ⟨field, none⟩ hchild]
  simp only [readSlot, Traced.bind_ok_iff, requireOptional_ok_iff, exists_eq_right]

theorem readEntries_ok_iff {index : Nat} {ds : List Document} {ns : List (Option (Node (.only c)))}
    (ih : ∀ u ∈ ds, ReadExactly u) :
    (readEntries field index ds).outcome = .ok (ns.map (Option.map widen)) ↔
      DenotesEntries ds ns := by
  rw [readEntries_eq]
  induction ds generalizing index ns with
  | nil =>
    refine ⟨?_, ?_⟩
    · intro h
      cases ns with
      | nil => exact .nil
      | cons n ns => cases h
    · intro h
      cases h
      rfl
  | cons d rest ihrest =>
    have hfirst : ∀ u, some d = some u → ReadExactly u := by
      rintro u ⟨⟩
      exact ih d List.mem_cons_self
    have hrest : ∀ u ∈ rest, ReadExactly u := fun u hu => ih u (List.mem_cons_of_mem _ hu)
    simp only [Traced.forEach, Traced.bind_ok_iff]
    refine ⟨?_, ?_⟩
    · rintro ⟨m, hm, ms, hms, hns⟩
      cases ns with
      | nil => cases hns
      | cons n ns =>
        cases hns
        exact .cons ((readOptional_ok_iff _ hfirst).mp hm) ((ihrest hrest).mp hms)
    · intro h
      cases h with
      | cons first rest =>
        exact ⟨_, (readOptional_ok_iff _ hfirst).mpr first, _, (ihrest hrest).mpr rest, rfl⟩

theorem readExactly_entries {ds : List Document}
    (ih : ∀ place u, (Document.object fields).child? place = some u → ReadExactly u)
    (h : Fields.value? field fields = some (.array ds)) : ∀ u ∈ ds, ReadExactly u := by
  intro u hu
  obtain ⟨i, hi⟩ := List.mem_iff_getElem?.mp hu
  rw [← Document.child?_entry h] at hi
  exact ih _ u hi

/-- What the reader of a tag gives is denoted. -/
theorem denotes_of_readTagged {t : Tag} {n : AnyNode} (tagged : Tagged fields t)
    (ih : ∀ place u, (Document.object fields).child? place = some u → ReadExactly u)
    (h : (readTagged fields t).outcome = .ok n) : Denotes (.object fields) n := by
  cases t with
  | identifier =>
    simp only [readTagged, Traced.bind_ok_iff, readLocation_ok_iff, readString_ok_iff] at h
    -- the location is read twice, the first time only for the faults of the other fields
    obtain ⟨l, -, name, hname, l', hl', hn⟩ := h
    cases hn
    exact .identifier tagged hl' hname
  | literal =>
    simp only [readTagged, Traced.bind_ok_iff, readLocation_ok_iff, readString_ok_iff,
      readLiteralValue_ok_iff] at h
    obtain ⟨l, -, value, ⟨d, hd, hvalue⟩, raw, hraw, l', hl', hn⟩ := h
    cases hn
    exact .literal tagged hl' hd hvalue hraw
  | memberExpression =>
    simp only [readTagged, Traced.bind_ok_iff, readLocation_ok_iff, readFlag_ok_iff,
      readSlot_ok_iff ih] at h
    obtain ⟨object, hobject, property, hproperty, computed, hcomputed, l, hl, hn⟩ := h
    cases hn
    exact .memberExpression tagged hl hobject hproperty hcomputed
  | arrayPattern =>
    simp only [readTagged, Traced.bind_ok_iff, readLocation_ok_iff, readList_ok_iff,
      outcome_requireEntries, requireFrom_ok_iff] at h
    obtain ⟨ns, ⟨ds, hds, hns⟩, elements, ⟨hmap, -⟩, l, hl, hn⟩ := h
    cases hn
    rw [hmap, readEntries_ok_iff (readExactly_entries ih hds)] at hns
    exact .arrayPattern tagged hl hds hns
  | objectPattern =>
    simp only [readTagged, Traced.bind_ok_iff, readLocation_ok_iff, readList_ok_iff,
      requireList_ok_iff] at h
    obtain ⟨ns, ⟨ds, hds, hns⟩, properties, hmap, l, hl, hn⟩ := h
    cases hn
    have hsome : ns = (properties.map some).map (Option.map widen) := by
      rw [hmap, List.map_map]
      rfl
    rw [hsome, readEntries_ok_iff (readExactly_entries ih hds)] at hns
    exact .objectPattern tagged hl hds hns
  | property | assignmentProperty =>
    simp only [readTagged, Traced.bind_ok_iff, readLocation_ok_iff, readFlag_ok_iff,
      readSlot_ok_iff ih] at h
    obtain ⟨_, hinit, _, hmethod, key, hkey, value, hvalue, shorthand, hshorthand, computed,
      hcomputed, l, hl, hn⟩ := h
    cases hn
    exact .assignmentProperty tagged (by decide) hl (refuseAccessor_ok_iff.mp hinit)
      (refuseMethod_ok_iff.mp hmethod) hkey hvalue hshorthand hcomputed
  | assignmentPattern =>
    simp only [readTagged, Traced.bind_ok_iff, readLocation_ok_iff, readSlot_ok_iff ih] at h
    obtain ⟨left, hleft, right, hright, l, hl, hn⟩ := h
    cases hn
    exact .assignmentPattern tagged hl hleft hright
  | restElement =>
    simp only [readTagged, Traced.bind_ok_iff, readLocation_ok_iff, readSlot_ok_iff ih] at h
    obtain ⟨argument, hargument, l, hl, hn⟩ := h
    cases hn
    exact .restElement tagged hl hargument

/-- What is denoted is what the reader gives. -/
theorem read_of_denotes {n : AnyNode} (place : Place)
    (ih : ∀ place u, (Document.object fields).child? place = some u → ReadExactly u)
    (h : Denotes (.object fields) n) : (read place (.object fields)).outcome = .ok n := by
  cases h with
  | identifier tagged location named =>
    rw [outcome_read_tagged place tagged]
    simp only [readTagged, Traced.bind_ok_iff, readLocation_ok_iff, readString_ok_iff]
    exact ⟨_, location, _, named, _, location, rfl⟩
  | literal tagged location present valued written =>
    rw [outcome_read_tagged place tagged]
    simp only [readTagged, Traced.bind_ok_iff, readLocation_ok_iff, readString_ok_iff,
      readLiteralValue_ok_iff]
    exact ⟨_, location, _, ⟨_, present, valued⟩, _, written, _, location, rfl⟩
  | memberExpression tagged location accessed accessor flag =>
    rw [outcome_read_tagged place tagged]
    simp only [readTagged, Traced.bind_ok_iff, readLocation_ok_iff, readFlag_ok_iff,
      readSlot_ok_iff ih]
    exact ⟨_, accessed, _, accessor, _, flag, _, location, rfl⟩
  | arrayPattern tagged location listed each =>
    rw [outcome_read_tagged place tagged]
    simp only [readTagged, Traced.bind_ok_iff, readLocation_ok_iff, readList_ok_iff,
      outcome_requireEntries, requireFrom_ok_iff]
    exact ⟨_, ⟨_, listed, (readEntries_ok_iff (readExactly_entries ih listed)).mpr each⟩, _,
      ⟨rfl, .inl trivial⟩, _, location, rfl⟩
  | objectPattern tagged location listed each =>
    rw [outcome_read_tagged place tagged]
    simp only [readTagged, Traced.bind_ok_iff, readLocation_ok_iff, readList_ok_iff,
      requireList_ok_iff]
    refine ⟨_, ⟨_, listed, (readEntries_ok_iff (readExactly_entries ih listed)).mpr each⟩, _, ?_, _,
      location, rfl⟩
    rw [List.map_map]
    rfl
  | assignmentProperty tagged entry location init method keyed valued short flag =>
    rw [outcome_read_tagged place tagged]
    rcases entry with rfl | rfl
    all_goals
      simp only [readTagged, Traced.bind_ok_iff, readLocation_ok_iff, readFlag_ok_iff,
        readSlot_ok_iff ih]
      exact ⟨_, refuseAccessor_ok_iff.mpr init, _, refuseMethod_ok_iff.mpr method, _, keyed, _,
        valued, _, short, _, flag, _, location, rfl⟩
  | assignmentPattern tagged location pattern default =>
    rw [outcome_read_tagged place tagged]
    simp only [readTagged, Traced.bind_ok_iff, readLocation_ok_iff, readSlot_ok_iff ih]
    exact ⟨_, pattern, _, default, _, location, rfl⟩
  | restElement tagged location rest =>
    rw [outcome_read_tagged place tagged]
    simp only [readTagged, Traced.bind_ok_iff, readLocation_ok_iff, readSlot_ok_iff ih]
    exact ⟨_, rest, _, location, rfl⟩

/-- The reader and the relation agree on every document. -/
theorem readExactly (d : Document) : ReadExactly d := by
  induction d using Document.childInduction with
  | step d ih =>
    -- both directions are needed of the children, so they are proved together
    intro place n
    refine ⟨?_, ?_⟩
    · intro h
      obtain ⟨fields, t, rfl, tagged, h⟩ := read_ok_iff_tagged.mp h
      exact denotes_of_readTagged tagged ih h
    · intro h
      cases d with
      | object fields => exact read_of_denotes place ih h
      | _ => cases h

/-- **The reader accepts its grammar.** A document is read as a tree exactly when it denotes that
tree. -/
theorem ofDocument_ok_iff_denotes (d : Document) (n : AnyNode) :
    (ofDocument d).outcome = .ok n ↔ Denotes d n :=
  readExactly d _ n

end Node

end PatternTree
