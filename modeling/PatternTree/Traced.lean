import PatternTree.Event

/-!
# Computations with a trace

A `Traced` computation reports events and ends with a value or with a fault. The events reported
before a fault are kept; after it nothing is reported any more. `Traced.bind_ok_iff`,
`Traced.bind_error_iff` and `Traced.events_bind` say what sequencing does to the outcome and to the
events.
-/

namespace PatternTree

/-- The events of a computation and how it ended. -/
structure Traced (α : Type) where
  /-- the events, in the order in which they were reported -/
  events : List Event
  /-- the value, or the fault that ended the computation -/
  outcome : Except Fault α

namespace Traced

variable {α β : Type}

/-- Ends with a value and reports nothing. -/
protected def pure (a : α) : Traced α :=
  ⟨[], .ok a⟩

/-- Goes on with the value of the first computation; its fault ends the whole. -/
protected def bind (x : Traced α) (f : α → Traced β) : Traced β :=
  match x.outcome with
  | .ok a => ⟨x.events ++ (f a).events, (f a).outcome⟩
  | .error e => ⟨x.events, .error e⟩

instance : Monad Traced where
  pure := Traced.pure
  bind := Traced.bind

/-- Reports events. -/
def report (events : List Event) : Traced Unit :=
  ⟨events, .ok ()⟩

/-- Ends with a fault. -/
def fail (cause : Cause) (location : Location := .unset) : Traced α :=
  ⟨[], .error { cause, location }⟩

@[simp] theorem outcome_pure (a : α) : (pure a : Traced α).outcome = .ok a := rfl

@[simp] theorem events_pure (a : α) : (pure a : Traced α).events = [] := rfl

@[simp] theorem outcome_report (es : List Event) : (report es).outcome = .ok () := rfl

@[simp] theorem events_report (es : List Event) : (report es).events = es := rfl

@[simp] theorem outcome_fail (c : Cause) (l : Location) :
    (fail c l : Traced α).outcome = .error ⟨c, l⟩ := rfl

@[simp] theorem events_fail (c : Cause) (l : Location) : (fail c l : Traced α).events = [] := rfl

/-- A sequence succeeds exactly when both parts do. -/
theorem bind_ok_iff {x : Traced α} {f : α → Traced β} {b : β} :
    (x >>= f).outcome = .ok b ↔ ∃ a, x.outcome = .ok a ∧ (f a).outcome = .ok b := by
  change (Traced.bind x f).outcome = .ok b ↔ _
  unfold Traced.bind
  cases x.outcome with
  | ok a => simp
  | error e => simp

/-- A sequence fails exactly when the first part does, or the second does after it. -/
theorem bind_error_iff {x : Traced α} {f : α → Traced β} {e : Fault} :
    (x >>= f).outcome = .error e ↔
      x.outcome = .error e ∨ ∃ a, x.outcome = .ok a ∧ (f a).outcome = .error e := by
  change (Traced.bind x f).outcome = .error e ↔ _
  unfold Traced.bind
  cases x.outcome with
  | ok a => simp
  | error e' => simp

/-- The events of a sequence: those of the second part follow if it is reached. -/
theorem events_bind (x : Traced α) (f : α → Traced β) :
    (x >>= f).events =
      x.events ++ (match x.outcome with | .ok a => (f a).events | .error _ => []) := by
  change (Traced.bind x f).events = _
  unfold Traced.bind
  cases x.outcome with
  | ok a => rfl
  | error e => simp

end Traced

namespace Location

/-- What is reported about a location that has just been written. -/
def warnings (l : Location) : List Event :=
  match l.range? with
  | some (s, e) => if e < s then [.outOfOrder s e] else []
  | none => []

/-- Sets one end, and reports a location that is now out of order. -/
def set (l : Location) (e : End) (p : Position) : Traced Location := do
  Traced.report (l.write e p).warnings
  pure (l.write e p)

@[simp] theorem outcome_set (l : Location) (e : End) (p : Position) :
    (l.set e p).outcome = .ok (l.write e p) := rfl

@[simp] theorem events_set (l : Location) (e : End) (p : Position) :
    (l.set e p).events = (l.write e p).warnings :=
  List.append_nil _

/-- A location is reported exactly when it is out of order. -/
theorem warnings_eq_nil_iff (l : Location) : l.warnings = [] ↔ l.isOrdered = true := by
  unfold warnings isOrdered
  cases l.range? with
  | none => simp
  | some ends =>
    obtain ⟨s, e⟩ := ends
    by_cases h : e < s
    · simp [h, UInt32.not_le.mpr h]
    · simp [h, UInt32.not_lt.mp h]

end Location

end PatternTree
