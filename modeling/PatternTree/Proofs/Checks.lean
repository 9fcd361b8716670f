import PatternTree.Proofs.Reading

/-!
# What the checks of candidates accept and refuse

A check hands its candidates on unchanged: what comes out of it, widened again, is what went in.
Said that way, a check is a relation between its result and its candidates, and no proof needs to
know how a tree is narrowed.

* `require_ok_iff` and `require_error_iff` say when a single candidate passes, and which fault it is
  refused with.
* `requireFrom_eq` says that a list is checked entry by entry, and `requireFrom_ok_iff` when it
  passes.
-/

namespace PatternTree

/-! ## Narrowing and widening -/

namespace Node

/-- A tree is narrowed to the tree that it is a widening of. -/
theorem narrow?_eq_some_iff {s : Role} {n : AnyNode} {m : Node s} :
    n.narrow? s = some m ↔ m.widen = n := by
  refine ⟨?_, ?_⟩
  · intro h
    cases s with
    | any =>
      obtain rfl := Option.some.inj h
      rw [widen_any, widen_any]
    | only c => cases c <;> cases n <;> cases h <;> rfl
  · rintro rfl
    exact narrow?_widen m

/-- What the narrowing of a place refuses is what the table of capabilities refuses. -/
theorem narrow?_eq_none_iff {s : Role} {n : AnyNode} :
    n.narrow? s = none ↔ s.admits n.kind = false := by
  cases s with
  | any => simp [narrow?]
  | only c =>
    cases c <;> cases n <;> simp [narrow?, asPattern?, asExpression?, asPatternProperty?, kind,
      Capability.admits]

/-- Trees of one place that are the same as trees of any kind are the same. -/
theorem eq_of_widen_eq {s : Role} {m n : Node s} (h : m.widen = n.widen) : m = n := by
  have hnarrow : m.widen.narrow? s = some n := narrow?_eq_some_iff.mpr h.symm
  rw [narrow?_widen] at hnarrow
  exact Option.some.inj hnarrow

/-- A tree that a place admits is a tree of that place. -/
theorem exists_widen_eq {c : Capability} {n : AnyNode} (h : c.admits n.kind = true) :
    ∃ m : Node (.only c), m.widen = n := by
  cases hm : n.narrow? (.only c) with
  | none =>
    rw [narrow?_eq_none_iff, Role.only_admits, h] at hm
    cases hm
  | some m => exact ⟨m, narrow?_eq_some_iff.mp hm⟩

end Node

/-! ## Single candidates -/

variable {c : Capability} {field : String} {allowAbsent : Bool}

/-- A candidate passes as itself. -/
theorem require_ok_iff {place : Place} {n : AnyNode} {m : Node (.only c)} :
    (require c place n).outcome = .ok m ↔ m.widen = n := by
  rw [← Node.narrow?_eq_some_iff]
  rw [require]
  cases n.narrow? (.only c) with
  | none => simp
  | some k => simp

/-- A candidate is refused when its kind lacks the capability. -/
theorem require_error_iff {place : Place} {n : AnyNode} {e : Fault} :
    (require c place n).outcome = .error e ↔
      c.admits n.kind = false ∧ e = ⟨.missingCapability place c n.kind, n.location⟩ := by
  rw [← Role.only_admits, ← Node.narrow?_eq_none_iff]
  rw [require]
  cases n.narrow? (.only c) with
  | none => simp [eq_comm]
  | some k => simp

theorem requireOptional_ok_iff {n : Option AnyNode} {m : Option (Node (.only c))} :
    (requireOptional c field n).outcome = .ok m ↔ n = m.map Node.widen := by
  cases n with
  | none => cases m <;> simp [requireOptional]
  | some n =>
    simp only [requireOptional, requireNode, Traced.bind_ok_iff, require_ok_iff,
      Traced.outcome_pure]
    cases m with
    | none => simp
    | some m => simp [eq_comm]

theorem requireOptional_error_iff {n : Option AnyNode} {e : Fault} :
    (requireOptional c field n).outcome = .error e ↔
      ∃ m, n = some m ∧ (require c ⟨field, none⟩ m).outcome = .error e := by
  cases n with
  | none => simp [requireOptional]
  | some n =>
    simp only [requireOptional, requireNode, Traced.bind_error_iff, Traced.outcome_pure]
    simp

/-- An entry passes as itself, unless it is absent where no entry may be. -/
theorem requireEntry_ok_iff {index : Nat} {n : Option AnyNode} {m : Option (Node (.only c))} :
    (requireEntry c field allowAbsent index n).outcome = .ok m ↔
      n = m.map Node.widen ∧ (allowAbsent = true ∨ n ≠ none) := by
  cases n with
  | none => cases allowAbsent <;> cases m <;> simp [requireEntry]
  | some n =>
    simp only [requireEntry, Traced.bind_ok_iff, require_ok_iff, Traced.outcome_pure]
    cases m with
    | none => simp
    | some m => simp [eq_comm]

theorem requireEntry_error_iff {index : Nat} {n : Option AnyNode} {e : Fault} :
    (requireEntry c field allowAbsent index n).outcome = .error e ↔
      (n = none ∧ allowAbsent = false ∧ e = ⟨.absentElement field index, .unset⟩) ∨
        ∃ m, n = some m ∧ (require c ⟨field, some index⟩ m).outcome = .error e := by
  cases n with
  | none => cases allowAbsent <;> simp [requireEntry, eq_comm]
  | some n =>
    simp only [requireEntry, Traced.bind_error_iff, Traced.outcome_pure]
    simp

/-! ## Lists of candidates -/

/-- The entries of a list are checked one by one. -/
theorem requireFrom_eq (index : Nat) (ns : List (Option AnyNode)) :
    requireFrom c field allowAbsent index ns =
      Traced.forEach (requireEntry c field allowAbsent) index ns := by
  induction ns generalizing index with
  | nil => rfl
  | cons n rest ih => rw [requireFrom, Traced.forEach, ih]

/-- A list passes as itself, unless an entry is absent where none may be. -/
theorem requireFrom_ok_iff {index : Nat} {ns : List (Option AnyNode)}
    {ms : List (Option (Node (.only c)))} :
    (requireFrom c field allowAbsent index ns).outcome = .ok ms ↔
      ns = ms.map (Option.map Node.widen) ∧ (allowAbsent = true ∨ none ∉ ns) := by
  induction ns generalizing index ms with
  | nil => cases ms <;> simp [requireFrom]
  | cons n rest ih =>
    simp only [requireFrom, Traced.bind_ok_iff, requireEntry_ok_iff, ih, Traced.outcome_pure]
    refine ⟨?_, ?_⟩
    · rintro ⟨m, ⟨hn, ha⟩, ms', ⟨hrest, has⟩, hms⟩
      cases hms
      refine ⟨by rw [List.map_cons, ← hn, ← hrest], ?_⟩
      rcases ha with ha | ha
      · exact .inl ha
      · refine has.imp_right fun has => ?_
        rw [List.mem_cons, not_or]
        exact ⟨ha.symm, has⟩
    · rintro ⟨hms, ha⟩
      cases ms with
      | nil => cases hms
      | cons m ms' =>
        rw [List.map_cons, List.cons.injEq] at hms
        rw [List.mem_cons, not_or] at ha
        exact ⟨m, ⟨hms.1, ha.imp_right fun ha => Ne.symm ha.1⟩, ms',
          ⟨hms.2, ha.imp_right And.right⟩, rfl⟩

/-- Reporting a list that passed does not change how the check ends. -/
theorem outcome_requireEntries (ns : List (Option AnyNode)) :
    (requireEntries c field ns allowAbsent).outcome =
      (requireFrom c field allowAbsent 0 ns).outcome := by
  rw [requireEntries]
  cases h : (requireFrom c field allowAbsent 0 ns).outcome with
  | ok ms => rw [Traced.outcome_bind_ok h, Traced.outcome_report_bind, Traced.outcome_pure]
  | error e => rw [Traced.outcome_bind_error h]

/-- A list without absent entries is the list of its present ones. -/
theorem map_some_filterMap_id {α : Type} {os : List (Option α)} (h : none ∉ os) :
    (os.filterMap id).map some = os := by
  induction os with
  | nil => rfl
  | cons o rest ih =>
    rw [List.mem_cons, not_or] at h
    cases o with
    | none => exact absurd rfl h.1
    | some a =>
      change some a :: (rest.filterMap id).map some = _
      rw [ih h.2]

/-- A list of present entries passes as the list of its entries. -/
theorem requireList_ok_iff_entries {ns : List (Option AnyNode)} {ms : List (Node (.only c))} :
    (requireList c field ns).outcome = .ok ms ↔
      (requireEntries c field ns false).outcome = .ok (ms.map some) := by
  simp only [requireList, Traced.bind_ok_iff, Traced.outcome_pure]
  refine ⟨?_, ?_⟩
  · rintro ⟨os, hos, ⟨⟩⟩
    suffices hpresent : none ∉ os by
      rw [map_some_filterMap_id hpresent]
      exact hos
    -- an absent entry would not have passed
    intro hmem
    rw [outcome_requireEntries, requireFrom_ok_iff] at hos
    obtain ⟨rfl, hnone⟩ := hos
    exact hnone.resolve_left (by decide) (List.mem_map_of_mem (f := Option.map Node.widen) hmem)
  · intro h
    refine ⟨_, h, ?_⟩
    rw [List.filterMap_map]
    exact congrArg _ (List.filterMap_some)

theorem requireList_ok_iff {ns : List (Option AnyNode)} {ms : List (Node (.only c))} :
    (requireList c field ns).outcome = .ok ms ↔ ns = ms.map fun m => some m.widen := by
  rw [requireList_ok_iff_entries, outcome_requireEntries, requireFrom_ok_iff, List.map_map]
  refine ⟨?_, ?_⟩
  · exact And.left
  · rintro rfl
    exact ⟨rfl, .inr (by simp)⟩

theorem requireList_error_iff {ns : List (Option AnyNode)} {e : Fault} :
    (requireList c field ns).outcome = .error e ↔
      (requireFrom c field false 0 ns).outcome = .error e := by
  simp only [requireList, Traced.bind_error_iff, outcome_requireEntries, Traced.outcome_pure]
  simp

end PatternTree
