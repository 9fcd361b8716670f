import PatternTree.Proofs.Acceptance

/-!
# What the plain readers and the checks report

Most readers report nothing when they succeed. Those of the plain fields never do, unless they read
a location for a fault; a location that was read is reported once, if it is out of order, since its
ends are written one after the other and only the second write can find both set. A check of a list
reports the list and nothing about its entries.

The lemmas speak of a computation that succeeds, and `Traced.events_bind_ok` puts its parts
together.
-/

namespace PatternTree

/-! ## Sequences -/

namespace Traced

variable {α β : Type}

/-- After a success the events of the second part follow those of the first. -/
theorem events_bind_ok {x : Traced α} {a : α} (h : x.outcome = .ok a) (f : α → Traced β) :
    (x >>= f).events = x.events ++ (f a).events := by
  rw [events_bind, h]

/-- A sequence of parts that report nothing reports nothing. -/
theorem events_bind_eq_nil {x : Traced α} {f : α → Traced β} (hx : x.events = [])
    (hf : ∀ a, (f a).events = []) : (x >>= f).events = [] := by
  rw [events_bind, hx]
  cases x.outcome with
  | ok a => exact hf a
  | error e => rfl

/-- A list reports nothing when no entry of it does. -/
theorem events_forEach_eq_nil {f : Nat → α → Traced β} {index : Nat} {as : List α} {bs : List β}
    (hf : ∀ i a b, (f i a).outcome = .ok b → (f i a).events = [])
    (h : (forEach f index as).outcome = .ok bs) : (forEach f index as).events = [] := by
  induction as generalizing index bs with
  | nil => rfl
  | cons a rest ih =>
    rw [forEach, bind_ok_iff] at h
    obtain ⟨b, hb, h⟩ := h
    rw [bind_ok_iff] at h
    obtain ⟨bs', hbs', -⟩ := h
    rw [forEach, events_bind_ok hb, hf index a b hb, events_bind_ok hbs', ih hbs']
    rfl

end Traced

/-! ## Locations -/

/-- Only locations out of order are reported as such. -/
theorem Location.eq_outOfOrder_of_mem_warnings {l : Location} {e : Event} (h : e ∈ l.warnings) :
    ∃ s t, e = .outOfOrder s t := by
  rw [warnings] at h
  split at h
  · split at h
    · exact ⟨_, _, List.mem_singleton.mp h⟩
    · cases h
  · cases h

section

variable {owner field : String} {fields : Fields}

theorem events_readCoordinate (owner field : String) (fields : Fields) :
    (readCoordinate owner field fields).events = [] := by
  rw [readCoordinate]
  split
  · split <;> rfl
  · rfl

theorem events_readPosition (owner : String) (d : Option Document) :
    (readPosition owner d).events = [] := by
  unfold readPosition
  split
  · rfl
  · rfl
  · refine Traced.events_bind_eq_nil (events_readCoordinate _ _ _) fun _ => ?_
    refine Traced.events_bind_eq_nil (events_readCoordinate _ _ _) fun _ => ?_
    exact Traced.events_bind_eq_nil (events_readCoordinate _ _ _) fun _ => rfl
  · rfl

/-- With only one end set there is nothing to report. -/
theorem events_setOptional_start (p : Option Position) :
    (Location.unset.setOptional .start p).events = [] := by
  cases p <;> rfl

/-- The second write finds both ends set, if both are. -/
theorem events_setOptional_stop (s p : Option Position) :
    (Location.setOptional ⟨s, none⟩ .stop p).events = Location.warnings ⟨s, p⟩ := by
  cases p with
  | none => cases s <;> rfl
  | some p => exact Location.events_set _ _ _

/-- A location that was read is reported once if it is out of order. -/
theorem events_readLocation {l : Location} (h : (readLocation owner fields).outcome = .ok l) :
    (readLocation owner fields).events = l.warnings := by
  rw [readLocation] at h ⊢
  split at h
  · cases h
    rfl
  · cases h
    rfl
  · simp only [Traced.bind_ok_iff, outcome_setOptional_start] at h
    obtain ⟨start, hstart, l', hl', stop, hstop, h⟩ := h
    cases hl'
    have hl : l = ⟨start, stop⟩ := by
      rw [outcome_setOptional_stop] at h
      exact (Except.ok.inj h).symm
    rw [Traced.events_bind_ok hstart, Traced.events_bind_ok (outcome_setOptional_start start),
      Traced.events_bind_ok hstop, events_readPosition, events_readPosition,
      events_setOptional_start, events_setOptional_stop, hl]
    rfl
  · cases h

/-! ## Other plain fields -/

theorem events_readString (l : Location) : (readString owner field fields l).events = [] := by
  rw [readString]
  split <;> rfl

theorem events_readLiteralValue (fields : Fields) (l : Location) :
    (readLiteralValue fields l).events = [] := by
  rw [readLiteralValue]
  split <;> rfl

theorem events_readFlag {b : Bool} (h : (readFlag owner field fields).outcome = .ok b) :
    (readFlag owner field fields).events = [] := by
  rw [readFlag] at h ⊢
  split at h
  · rfl
  · rfl
  · simp [Traced.bind_ok_iff] at h

theorem events_refuseAccessor (h : (refuseAccessor fields).outcome = .ok ()) :
    (refuseAccessor fields).events = [] := by
  rw [refuseAccessor] at h ⊢
  split at h
  · rfl
  · rfl
  · simp [Traced.bind_ok_iff] at h

theorem events_refuseMethod (h : (refuseMethod fields).outcome = .ok ()) :
    (refuseMethod fields).events = [] := by
  rw [refuseMethod, Traced.bind_ok_iff] at h
  obtain ⟨method, hmethod, h⟩ := h
  rw [refuseMethod, Traced.events_bind_ok hmethod, events_readFlag hmethod]
  cases method with
  | false => rfl
  | true => simp [Traced.bind_ok_iff] at h

end

/-! ## Checks -/

section

variable {c : Capability} {field : String} {allowAbsent : Bool}

theorem events_require {place : Place} {n : AnyNode} {m : Node (.only c)}
    (h : (require c place n).outcome = .ok m) : (require c place n).events = [] := by
  rw [require] at h ⊢
  split at h
  · rfl
  · cases h

theorem events_requireOptional {n : Option AnyNode} {m : Option (Node (.only c))}
    (h : (requireOptional c field n).outcome = .ok m) :
    (requireOptional c field n).events = [] := by
  cases n with
  | none => rfl
  | some n =>
    rw [requireOptional, Traced.bind_ok_iff] at h
    obtain ⟨k, hk, -⟩ := h
    rw [requireOptional, Traced.events_bind_ok hk, requireNode, events_require hk]
    rfl

theorem events_requireEntry {index : Nat} {n : Option AnyNode} {m : Option (Node (.only c))}
    (h : (requireEntry c field allowAbsent index n).outcome = .ok m) :
    (requireEntry c field allowAbsent index n).events = [] := by
  cases n with
  | none =>
    cases allowAbsent with
    | true => rfl
    | false => cases h
  | some n =>
    rw [requireEntry, Traced.bind_ok_iff] at h
    obtain ⟨k, hk, -⟩ := h
    rw [requireEntry, Traced.events_bind_ok hk, events_require hk]
    rfl

/-- A list that passed is reported with its length. -/
theorem events_requireEntries {ns : List (Option AnyNode)} {ms : List (Option (Node (.only c)))}
    (h : (requireEntries c field ns allowAbsent).outcome = .ok ms) :
    (requireEntries c field ns allowAbsent).events = [.validated field ms.length c] := by
  have hfrom : (requireFrom c field allowAbsent 0 ns).outcome = .ok ms := by
    rw [← outcome_requireEntries]
    exact h
  have hlength : ns.length = ms.length := by
    obtain ⟨rfl, -⟩ := requireFrom_ok_iff.mp hfrom
    exact List.length_map _
  have hquiet : (requireFrom c field allowAbsent 0 ns).events = [] := by
    rw [requireFrom_eq] at hfrom ⊢
    exact Traced.events_forEach_eq_nil (fun _ _ _ => events_requireEntry) hfrom
  rw [requireEntries, Traced.events_bind_ok hfrom, hquiet, hlength]
  rfl

end

end PatternTree
