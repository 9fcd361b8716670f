import PatternTree.Proofs.Blame

/-!
# The first fault

A document can have many faults, and one of them is reported.

* `FirstOf` picks the fault of the least index, and `FirstFault` that of the first check in a list.
  The latter goes with sequencing: if the first part of a computation fails with what one check
  finds, and the rest with what the others find first, the whole fails with what all of them find
  first (`Traced.bind_error_iff_firstFault`).
* So the faults of a position and of a location are each a list of checks, which do not mention the
  readers (`readLocation_error_iff`). What has no such fault denotes a location.
-/

namespace PatternTree

/-! ## The first fault -/

/-- The fault is that of the least index at which there is one. -/
def FirstOf (faulty : Nat → Fault → Prop) (e : Fault) : Prop :=
  ∃ i, faulty i e ∧ ∀ j < i, ∀ e', ¬ faulty j e'

theorem FirstOf.exists_faulty {faulty : Nat → Fault → Prop} {e : Fault} (h : FirstOf faulty e) :
    ∃ i e, faulty i e := by
  obtain ⟨i, hi, -⟩ := h
  exact ⟨i, e, hi⟩

/-- The fault is what the first check that finds one finds. -/
def FirstFault (checks : List (Fault → Prop)) (e : Fault) : Prop :=
  FirstOf (fun i e => ∃ check, checks[i]? = some check ∧ check e) e

section

variable {check : Fault → Prop} {checks : List (Fault → Prop)} {e : Fault}

theorem not_firstFault_nil : ¬ FirstFault [] e := by
  rintro ⟨i, ⟨check, hcheck, -⟩, -⟩
  cases hcheck

theorem firstFault_cons :
    FirstFault (check :: checks) e ↔ check e ∨ (∀ e', ¬ check e') ∧ FirstFault checks e := by
  refine ⟨?_, ?_⟩
  · rintro ⟨i, ⟨c, hc, he⟩, hbefore⟩
    cases i with
    | zero =>
      obtain rfl := Option.some.inj hc
      exact .inl he
    | succ i =>
      refine .inr ⟨?_, i, ⟨c, hc, he⟩, ?_⟩
      · intro e' he'
        exact hbefore 0 (Nat.succ_pos i) e' ⟨check, rfl, he'⟩
      · intro j hj
        exact hbefore (j + 1) (Nat.succ_lt_succ hj)
  · rintro (he | ⟨hnone, i, hi, hbefore⟩)
    · refine ⟨0, ⟨check, rfl, he⟩, ?_⟩
      intro j hj
      exact absurd hj (Nat.not_lt_zero j)
    · refine ⟨i + 1, hi, ?_⟩
      rintro j hj e' ⟨c, hc, he'⟩
      cases j with
      | zero =>
        obtain rfl := Option.some.inj hc
        exact hnone e' he'
      | succ j => exact hbefore j (Nat.lt_of_succ_lt_succ hj) e' ⟨c, hc, he'⟩

/-- A check that finds nothing can be left out. -/
theorem firstFault_cons_of_none (h : ∀ e', ¬ check e') :
    FirstFault (check :: checks) e ↔ FirstFault checks e := by
  rw [firstFault_cons]
  exact ⟨fun he => he.elim (fun he => absurd he (h e)) And.right, fun he => .inr ⟨h, he⟩⟩

theorem FirstFault.exists_mem (h : FirstFault checks e) : ∃ check ∈ checks, check e := by
  obtain ⟨i, ⟨check, hcheck, he⟩, -⟩ := h
  exact ⟨check, List.mem_of_getElem? hcheck, he⟩

end

namespace Traced

variable {α β : Type} {x : Traced α} {e : Fault}
variable {check : Fault → Prop} {checks : List (Fault → Prop)}

/-- The first part of a sequence makes the first check, and the rest makes the others if that
passes. -/
theorem bind_error_iff_firstFault {f : α → Traced β} (hx : ∀ e, x.outcome = .error e ↔ check e)
    (hf : ∀ a, x.outcome = .ok a → ∀ e, (f a).outcome = .error e ↔ FirstFault checks e) :
    (x >>= f).outcome = .error e ↔ FirstFault (check :: checks) e := by
  rw [bind_error_iff, firstFault_cons, hx]
  refine or_congr_right ⟨?_, ?_⟩
  · rintro ⟨a, ha, he⟩
    refine ⟨?_, (hf a ha e).mp he⟩
    intro e' he'
    rw [← hx, ha] at he'
    cases he'
  · rintro ⟨hnone, he⟩
    cases ha : x.outcome with
    | ok a => exact ⟨a, rfl, (hf a ha e).mpr he⟩
    | error e' => exact absurd ((hx e').mp ha) (hnone e')

/-- After the last check nothing fails. -/
theorem error_iff_of_ok {a : α} (h : x.outcome = .ok a) :
    x.outcome = .error e ↔ FirstFault [] e := by
  refine ⟨?_, fun he => absurd he not_firstFault_nil⟩
  intro he
  rw [h] at he
  cases he

end Traced

/-! ## Faults of locations -/

/-- A number of a position is missing, or no integer of 32 bits. -/
def CoordinateFault (owner : String) (fields : Fields) (field : String) (e : Fault) : Prop :=
  (∀ k : UInt32, Fields.value? field fields ≠ some (.number (.integer k.toNat))) ∧
    e = ⟨.invalidField owner field "an unsigned integer", .unset⟩

/-- The fault of a value that is no position. -/
inductive PositionFault (owner : String) : Document → Fault → Prop where
  /-- the value is no object -/
  | notAnObject {d : Document} (set : d ≠ .null) (other : ∀ fields, d ≠ .object fields) :
      PositionFault owner d ⟨.invalidField owner "location" "a pair of positions", .unset⟩
  /-- one of the numbers is wrong -/
  | coordinate {fields : Fields} {e : Fault}
      (first : FirstFault (["line", "column", "offset"].map (CoordinateFault owner fields)) e) :
      PositionFault owner (.object fields) e

/-- One of the ends of a location is there and is no position. -/
def EndFault (owner : String) (ends : Fields) (name : String) (e : Fault) : Prop :=
  ∃ d, Fields.value? name ends = some d ∧ PositionFault owner d e

/-- The fault of a value that is no location. -/
inductive LocationFault (owner : String) : Document → Fault → Prop where
  /-- the value is no object -/
  | notAnObject {d : Document} (set : d ≠ .null) (other : ∀ fields, d ≠ .object fields) :
      LocationFault owner d ⟨.invalidField owner "location" "an object", .unset⟩
  /-- one of the ends is wrong -/
  | position {ends : Fields} {e : Fault}
      (first : FirstFault (["start", "end"].map (EndFault owner ends)) e) :
      LocationFault owner (.object ends) e

section

variable {owner field : String} {fields : Fields} {e : Fault}

theorem readCoordinate_error_iff :
    (readCoordinate owner field fields).outcome = .error e ↔
      CoordinateFault owner fields field e := by
  refine ⟨readCoordinate_error, ?_⟩
  rintro ⟨hwrong, rfl⟩
  cases h : (readCoordinate owner field fields).outcome with
  | ok k => exact absurd (readCoordinate_ok_iff.mp h) (hwrong k)
  | error e' => rw [(readCoordinate_error h).2]

theorem readPosition_object_error_iff :
    (readPosition owner (some (.object fields))).outcome = .error e ↔
      FirstFault (["line", "column", "offset"].map (CoordinateFault owner fields)) e := by
  rw [readPosition]
  refine Traced.bind_error_iff_firstFault (fun _ => readCoordinate_error_iff) fun _ _ _ => ?_
  refine Traced.bind_error_iff_firstFault (fun _ => readCoordinate_error_iff) fun _ _ _ => ?_
  refine Traced.bind_error_iff_firstFault (fun _ => readCoordinate_error_iff) fun _ _ _ => ?_
  exact Traced.error_iff_of_ok rfl

theorem readPosition_error_iff {d : Option Document} :
    (readPosition owner d).outcome = .error e ↔ ∃ u, d = some u ∧ PositionFault owner u e := by
  refine ⟨?_, ?_⟩
  · intro h
    unfold readPosition at h
    split at h
    · cases h
    · cases h
    · next fields => exact ⟨_, rfl, .coordinate (readPosition_object_error_iff.mp h)⟩
    · next u hnull hobject =>
      cases h
      exact ⟨u, rfl, .notAnObject hnull hobject⟩
  · rintro ⟨u, rfl, h⟩
    cases h with
    | coordinate first => exact readPosition_object_error_iff.mpr first
    | notAnObject set other =>
      unfold readPosition
      split
      · next hnone => cases hnone
      · next hnull => exact absurd (Option.some.inj hnull) set
      · next fields hobject => exact absurd (Option.some.inj hobject) (other fields)
      · rfl

/-- Only the ends can be at fault: writing them never fails. -/
theorem readLocation_object_error_iff {ends : Fields}
    (h : Fields.value? "location" fields = some (.object ends)) :
    (readLocation owner fields).outcome = .error e ↔
      FirstFault (["start", "end"].map (EndFault owner ends)) e := by
  rw [readLocation, h]
  refine Traced.bind_error_iff_firstFault (fun _ => readPosition_error_iff) fun start _ _ => ?_
  rw [Traced.outcome_bind_ok (outcome_setOptional_start start)]
  refine Traced.bind_error_iff_firstFault (fun _ => readPosition_error_iff) fun stop _ _ => ?_
  exact Traced.error_iff_of_ok (outcome_setOptional_stop start stop)

theorem readLocation_error_iff :
    (readLocation owner fields).outcome = .error e ↔
      ∃ d, Fields.value? "location" fields = some d ∧ LocationFault owner d e := by
  refine ⟨?_, ?_⟩
  · intro h
    have hread := h
    rw [readLocation] at h
    split at h
    · cases h
    · cases h
    · next ends hends =>
        exact ⟨_, hends, .position ((readLocation_object_error_iff hends).mp hread)⟩
    · next d hnull hobject hd =>
      cases h
      exact ⟨d, hd, .notAnObject hnull hobject⟩
  · rintro ⟨d, hd, h⟩
    cases h with
    | position first => exact (readLocation_object_error_iff hd).mpr first
    | notAnObject set other =>
      rw [readLocation, hd]
      split
      · next hnone => cases hnone
      · next hnull => exact absurd (Option.some.inj hnull) set
      · next ends hobject => exact absurd (Option.some.inj hobject) (other ends)
      · rfl

/-- A value is malformed or denotes a location. -/
theorem locationFault_or_denotes (owner : String) (fields : Fields) :
    (∃ v e, Fields.value? "location" fields = some v ∧ LocationFault owner v e) ∨
      ∃ l, DenotesLocation (Fields.value? "location" fields) l := by
  cases h : (readLocation owner fields).outcome with
  | error e =>
    obtain ⟨v, hv, hfault⟩ := readLocation_error_iff.mp h
    exact .inl ⟨v, e, hv, hfault⟩
  | ok l => exact .inr ⟨l, readLocation_ok_iff.mp h⟩

end

theorem PositionFault.eq_invalidField {owner : String} {d : Document} {e : Fault}
    (h : PositionFault owner d e) :
    ∃ field expected, e = ⟨.invalidField owner field expected, .unset⟩ := by
  cases h with
  | notAnObject => exact ⟨_, _, rfl⟩
  | coordinate first =>
    obtain ⟨check, hcheck, he⟩ := first.exists_mem
    obtain ⟨field, -, rfl⟩ := List.mem_map.mp hcheck
    exact ⟨field, _, he.2⟩

/-- The fault of a location names a field and has no location. -/
theorem LocationFault.eq_invalidField {owner : String} {d : Document} {e : Fault}
    (h : LocationFault owner d e) :
    ∃ field expected, e = ⟨.invalidField owner field expected, .unset⟩ := by
  cases h with
  | notAnObject => exact ⟨_, _, rfl⟩
  | position first =>
    obtain ⟨check, hcheck, he⟩ := first.exists_mem
    obtain ⟨name, -, rfl⟩ := List.mem_map.mp hcheck
    obtain ⟨u, -, hu⟩ := he
    exact hu.eq_invalidField

/-- A value denotes one location at most. -/
theorem DenotesLocation.unique {fields : Fields} {l l' : Location}
    (h : DenotesLocation (Fields.value? "location" fields) l)
    (h' : DenotesLocation (Fields.value? "location" fields) l') : l = l' := by
  have hread := (@readLocation_ok_iff "Token" fields l).mpr h
  rw [readLocation_ok_iff.mpr h'] at hread
  exact (Except.ok.inj hread).symm

end PatternTree
