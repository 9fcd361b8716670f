import PatternTree.Proofs.Checks

/-!
# The verdict on a list of candidates

The check of a list is decided by the table of capabilities alone: a candidate **offends** when it
is absent where it may not be, or when its kind lacks the capability. A list without an offender
passes, and any other list is refused for the first of them, whatever stands behind it
(`requireEntries_verdict`).
-/

namespace PatternTree

/-- The candidate may not stand in a list that asks for the capability. -/
def Offends (c : Capability) (allowAbsent : Bool) : Option AnyNode → Prop
  | none => allowAbsent = false
  | some n => c.admits n.kind = false

/-- The fault of an offender: an absent one has no location, a node has its own. -/
def offence (c : Capability) (field : String) (index : Nat) : Option AnyNode → Fault
  | none => ⟨.absentElement field index, .unset⟩
  | some n => ⟨.missingCapability ⟨field, some index⟩ c n.kind, n.location⟩

section

variable {c : Capability} {field : String} {allowAbsent : Bool} {ns : List (Option AnyNode)}

/-- A single entry is refused exactly when it offends. -/
theorem requireEntry_error_iff_offends {index : Nat} {n : Option AnyNode} {e : Fault} :
    (requireEntry c field allowAbsent index n).outcome = .error e ↔
      Offends c allowAbsent n ∧ e = offence c field index n := by
  rw [requireEntry_error_iff]
  cases n with
  | none => simp [Offends, offence]
  | some n => simp [Offends, offence, require_error_iff]

/-- A single entry passes exactly when it does not offend. -/
theorem exists_requireEntry_ok_iff {index : Nat} {n : Option AnyNode} :
    (∃ m, (requireEntry c field allowAbsent index n).outcome = .ok m) ↔
      ¬ Offends c allowAbsent n := by
  refine ⟨?_, ?_⟩
  · rintro ⟨m, hm⟩ hoffends
    have he :
        (requireEntry c field allowAbsent index n).outcome = .error (offence c field index n) :=
      requireEntry_error_iff_offends.mpr ⟨hoffends, rfl⟩
    rw [hm] at he
    cases he
  · intro hfits
    cases h : (requireEntry c field allowAbsent index n).outcome with
    | ok m => exact ⟨m, rfl⟩
    | error e => exact absurd (requireEntry_error_iff_offends.mp h).1 hfits

/-- A list is refused for its first offender. -/
theorem requireEntries_error_iff {e : Fault} :
    (requireEntries c field ns allowAbsent).outcome = .error e ↔
      ∃ k n, ns[k]? = some n ∧ Offends c allowAbsent n ∧
        (∀ j < k, ∀ m, ns[j]? = some m → ¬ Offends c allowAbsent m) ∧ e = offence c field k n := by
  rw [outcome_requireEntries, requireFrom_eq, Traced.forEach_error_iff]
  simp only [requireEntry_error_iff_offends, exists_requireEntry_ok_iff, Nat.zero_add]
  refine ⟨?_, ?_⟩
  · rintro ⟨k, n, hn, ⟨hoffends, he⟩, hbefore⟩
    exact ⟨k, n, hn, hoffends, hbefore, he⟩
  · rintro ⟨k, n, hn, hoffends, hbefore, he⟩
    exact ⟨k, n, hn, ⟨hoffends, he⟩, hbefore⟩

/-- No candidate offends when all present ones have the capability and absent ones are allowed. -/
theorem forall_not_offends_iff :
    (∀ n ∈ ns, ¬ Offends c allowAbsent n) ↔
      (∀ n, some n ∈ ns → c.admits n.kind = true) ∧ (allowAbsent = true ∨ none ∉ ns) := by
  refine ⟨?_, ?_⟩
  · intro h
    refine ⟨fun n hn => Bool.of_not_eq_false (h _ hn), ?_⟩
    by_cases habsent : none ∈ ns
    · exact .inl (Bool.of_not_eq_false (h _ habsent))
    · exact .inr habsent
  · rintro ⟨hadmits, habsent⟩ n hn hoffends
    cases n with
    | none =>
      rcases habsent with hallowed | habsent
      · rw [Offends, hallowed] at hoffends
        cases hoffends
      · exact habsent hn
    | some n =>
      rw [Offends, hadmits n hn] at hoffends
      cases hoffends

/-- A list passes exactly when no candidate offends. -/
theorem exists_requireEntries_ok_iff :
    (∃ r, (requireEntries c field ns allowAbsent).outcome = .ok r) ↔
      ∀ n ∈ ns, ¬ Offends c allowAbsent n := by
  refine ⟨?_, ?_⟩
  · rintro ⟨r, hr⟩ n hn
    obtain ⟨i, hi⟩ := List.mem_iff_getElem?.mp hn
    rw [outcome_requireEntries, requireFrom_eq] at hr
    obtain ⟨m, -, hm⟩ := Traced.forEach_ok_result hr hi
    exact exists_requireEntry_ok_iff.mp ⟨m, hm⟩
  · intro hfits
    cases h : (requireEntries c field ns allowAbsent).outcome with
    | ok r => exact ⟨r, rfl⟩
    | error e =>
      obtain ⟨k, n, hn, hoffends, -⟩ := requireEntries_error_iff.mp h
      exact absurd hoffends (hfits n (List.mem_of_getElem? hn))

/-- So does a list in which no candidate may be absent. -/
theorem exists_requireList_ok_iff :
    (∃ ms, (requireList c field ns).outcome = .ok ms) ↔ ∀ n ∈ ns, ¬ Offends c false n := by
  have hentries : (∃ r, (requireEntries c field ns false).outcome = .ok r) ↔ _ :=
    exists_requireEntries_ok_iff
  rw [← hentries]
  refine ⟨?_, ?_⟩
  · rintro ⟨ms, hms⟩
    exact ⟨_, requireList_ok_iff_entries.mp hms⟩
  · rintro ⟨r, hr⟩
    cases h : (requireList c field ns).outcome with
    | ok ms => exact ⟨ms, rfl⟩
    | error e =>
      rw [requireList_error_iff, ← outcome_requireEntries, hr] at h
      cases h

end

end PatternTree
