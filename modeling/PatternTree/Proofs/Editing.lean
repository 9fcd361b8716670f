import PatternTree.Proofs.Cell
import PatternTree.Proofs.Verdict

/-!
# Runs of calls on a node

A client fills a node by calls, some of which may be refused. Each call addresses one cell.

* A single edit either **fits**, and then stores its argument in its cell and changes no other
  (`Edit.apply_of_fits`), or it is refused, and then changes nothing (`Edit.apply_of_not_fits`).
  Which of the two it is does not depend on the node.
* So after a run of calls every cell holds the argument of the last call that addresses it and fits
  (`Call.run_eq_iff_holds`), and calls for different cells can be reordered
  (`Call.run_eq_of_filter_eq`).
-/

namespace PatternTree

/-- The field that a cause names. -/
def Cause.field? : Cause → Option String
  | .absentElement field _ => some field
  | .missingCapability place _ _ => some place.field
  | .notAnArray field => some field
  | .notANode place => some place.field
  | .unknownNodeType _ => none
  | .unknownTokenType _ => none
  | .missingField _ field => some field
  | .invalidField _ field _ => some field

/-- The field that a cell is known by. -/
def Cell.field : {k : Kind} → Cell k → String
  | _, .location .start => "start"
  | _, .location .stop => "end"
  | _, .name => "name"
  | _, .value => "value"
  | _, .raw => "raw"
  | _, .flag .accessComputed => "computed"
  | _, .flag .shorthand => "shorthand"
  | _, .flag .keyComputed => "computed"
  | _, .child .object => "object"
  | _, .child .property => "property"
  | _, .child .key => "key"
  | _, .child .value => "value"
  | _, .child .left => "left"
  | _, .child .right => "right"
  | _, .child .argument => "argument"
  | _, .elements => "elements"
  | _, .properties => "properties"

theorem field?_offence (c : Capability) (field : String) (index : Nat) (n : Option AnyNode) :
    (offence c field index n).cause.field? = some field := by
  cases n <;> rfl

/-! ## Single edits -/

namespace Edit

variable {k : Kind}

/-- The cell that an edit addresses. -/
def cell : {k : Kind} → Edit k → Cell k
  | _, .location e _ => .location e
  | _, .name _ => .name
  | _, .flag f _ => .flag f
  | _, .child s _ => .child s
  | _, .tryChild s _ => .child s
  | _, .elements _ => .elements
  | _, .tryElements _ => .elements
  | _, .properties _ => .properties
  | _, .tryProperties _ => .properties

/-- Every candidate has the capability that the cell asks for, and none is absent from the entries
of an object pattern. -/
def Fits : {k : Kind} → Edit k → Prop
  | _, .tryChild (c := c) _ n => c.admits n.kind = true
  | _, .tryElements ns => ∀ n, some n ∈ ns → Capability.pattern.admits n.kind = true
  | _, .tryProperties ns =>
    (∀ n, some n ∈ ns → Capability.patternProperty.admits n.kind = true) ∧ none ∉ ns
  | _, _ => True

/-- The edit addresses the cell, and its argument is the content. A candidate is the tree that it is
a widening of. -/
inductive Argument : {k : Kind} → Edit k → (a : Cell k) → a.Content → Prop where
  /-- a position -/
  | location {k : Kind} (e : End) (p : Position) :
      Argument (k := k) (.location e p) (.location e) (some p)
  /-- a name -/
  | name (s : String) : Argument (.name s) .name s
  /-- a truth value -/
  | flag {k : Kind} (f : Flag k) (v : Bool) : Argument (.flag f v) (.flag f) v
  /-- a child -/
  | child {k : Kind} {c : Capability} (s : Slot k c) (n : Node (.only c)) :
      Argument (.child s n) (.child s) (some n)
  /-- a candidate -/
  | tryChild {k : Kind} {c : Capability} (s : Slot k c) {n : AnyNode} {m : Node (.only c)}
      (same : m.widen = n) : Argument (.tryChild s n) (.child s) (some m)
  /-- elements -/
  | elements (ns : List (Option Pattern)) : Argument (.elements ns) .elements ns
  /-- candidates for elements -/
  | tryElements {ns : List (Option AnyNode)} {ms : List (Option Pattern)}
      (same : ms.map (Option.map Node.widen) = ns) : Argument (.tryElements ns) .elements ms
  /-- entries -/
  | properties (ns : List PatternProperty) : Argument (.properties ns) .properties ns
  /-- candidates for entries -/
  | tryProperties {ns : List (Option AnyNode)} {ms : List PatternProperty}
      (same : ms.map (fun m => some m.widen) = ns) : Argument (.tryProperties ns) .properties ms

/-- An edit that fits stores its argument, and leaves the other cells alone. -/
theorem apply_of_fits {e : Edit k} (h : e.Fits) (b : Body k) :
    (e.apply b).result.outcome = .ok () ∧ e.Argument e.cell (e.cell.get (e.apply b).after) ∧
      ∀ a, a ≠ e.cell → a.get (e.apply b).after = a.get b := by
  cases e with
  | location e p =>
    have hafter : ((Edit.location e p).apply b).after = b.relocate ((Body.location b).write e p) :=
      rfl
    rw [hafter, cell, Cell.get_relocate_self]
    exact ⟨rfl, .location e p, fun a ha => Cell.get_relocate_of_ne ha b p⟩
  | name s => exact ⟨rfl, .name s, fun a ha => Cell.get_name_of_ne ha b s⟩
  | flag f v =>
    have hafter : ((Edit.flag f v).apply b).after = f.set b v := rfl
    rw [hafter, cell, Cell.get_flag_self]
    exact ⟨rfl, .flag f v, fun a ha => Cell.get_flag_of_ne ha b v⟩
  | child s n =>
    have hafter : ((Edit.child s n).apply b).after = s.set b n := rfl
    rw [hafter, cell, Cell.get_child_self]
    exact ⟨rfl, .child s n, fun a ha => Cell.get_child_of_ne ha b n⟩
  | tryChild s n =>
    obtain ⟨m, hm⟩ := Node.exists_widen_eq h
    have hcheck : (requireNode _ s.name n).outcome = .ok m := require_ok_iff.mpr hm
    rw [apply, InPlace.check_bind_ok hcheck]
    refine ⟨rfl, ?_, fun a ha => Cell.get_child_of_ne ha b m⟩
    change Argument _ _ ((Cell.child s).get (s.set b m))
    rw [Cell.get_child_self]
    exact .tryChild s hm
  | elements ns => exact ⟨rfl, .elements ns, fun a ha => Cell.get_elements_of_ne ha b ns⟩
  | tryElements ns =>
    obtain ⟨ms, hms⟩ := exists_requireEntries_ok_iff.mpr (forall_not_offends_iff.mpr ⟨h, .inl rfl⟩)
    rw [apply, InPlace.check_bind_ok hms]
    rw [outcome_requireEntries, requireFrom_ok_iff] at hms
    exact ⟨rfl, .tryElements hms.1.symm, fun a ha => Cell.get_elements_of_ne ha b ms⟩
  | properties ns => exact ⟨rfl, .properties ns, fun a ha => Cell.get_properties_of_ne ha b ns⟩
  | tryProperties ns =>
    obtain ⟨ms, hms⟩ := exists_requireList_ok_iff.mpr (forall_not_offends_iff.mpr ⟨h.1, .inr h.2⟩)
    rw [apply, InPlace.check_bind_ok hms]
    rw [requireList_ok_iff] at hms
    exact ⟨rfl, .tryProperties hms.symm, fun a ha => Cell.get_properties_of_ne ha b ms⟩

/-- An edit that does not fit is refused with a fault that names its cell, and changes nothing. -/
theorem apply_of_not_fits {e : Edit k} (h : ¬ e.Fits) (b : Body k) :
    ∃ f, (e.apply b).result.outcome = .error f ∧ f.cause.field? = some e.cell.field ∧
      (e.apply b).after = b := by
  cases e with
  | tryChild s n =>
    have hcheck : (requireNode _ s.name n).outcome = .error _ :=
      require_error_iff.mpr ⟨Bool.of_not_eq_true h, rfl⟩
    have hname : s.name = (Cell.child s).field := by
      cases s <;> rfl
    rw [apply, InPlace.check_bind_error hcheck]
    exact ⟨_, rfl, congrArg some hname, rfl⟩
  | tryElements ns =>
    cases hcheck : (requireEntries .pattern "elements" ns true).outcome with
    | ok ms =>
      exact absurd (forall_not_offends_iff.mp (exists_requireEntries_ok_iff.mp ⟨ms, hcheck⟩)).1 h
    | error f =>
      rw [apply, InPlace.check_bind_error hcheck]
      obtain ⟨i, n, -, -, -, rfl⟩ := requireEntries_error_iff.mp hcheck
      exact ⟨_, rfl, field?_offence _ _ _ _, rfl⟩
  | tryProperties ns =>
    cases hcheck : (requireList .patternProperty "properties" ns).outcome with
    | ok ms =>
      have hfits := forall_not_offends_iff.mp (exists_requireList_ok_iff.mp ⟨ms, hcheck⟩)
      exact absurd ⟨hfits.1, hfits.2.resolve_left Bool.noConfusion⟩ h
    | error f =>
      rw [apply, InPlace.check_bind_error hcheck]
      rw [requireList_error_iff, ← outcome_requireEntries] at hcheck
      obtain ⟨i, n, -, -, -, rfl⟩ := requireEntries_error_iff.mp hcheck
      exact ⟨_, rfl, field?_offence _ _ _ _, rfl⟩
  | _ => exact absurd trivial h

/-- An argument is for the cell that the edit addresses. -/
theorem Argument.cell_eq {e : Edit k} {a : Cell k} {v : a.Content} (h : e.Argument a v) :
    e.cell = a := by
  cases h <;> rfl

/-- An edit has one argument. -/
theorem Argument.unique {e : Edit k} {a : Cell k} {v w : a.Content} (hv : e.Argument a v)
    (hw : e.Argument a w) : v = w := by
  cases hv with
  | location e p =>
    cases hw
    rfl
  | name s =>
    cases hw
    rfl
  | flag f v =>
    cases hw
    rfl
  | child s n =>
    cases hw
    rfl
  | elements ns =>
    cases hw
    rfl
  | properties ns =>
    cases hw
    rfl
  | tryChild s same =>
    cases hw with
    | tryChild _ same' => exact congrArg some (Node.eq_of_widen_eq (same.trans same'.symm))
  | tryElements same =>
    cases hw with
    | tryElements same' =>
      refine (List.map_inj_right fun m n h => ?_).mp (same.trans same'.symm)
      exact (Option.map_inj_right fun _ _ => Node.eq_of_widen_eq).mp h
  | tryProperties same =>
    cases hw with
    | tryProperties same' =>
      refine (List.map_inj_right fun m n h => ?_).mp (same.trans same'.symm)
      exact Node.eq_of_widen_eq (Option.some.inj h)

end Edit

/-! ## Calls -/

namespace Node

variable {r : Role}

/-- The structure of a node of a known kind, blank for a node of another. -/
def bodyAs : (k : Kind) → Node r → Body k
  | .identifier, .identifier _ b => b
  | .literal, .literal _ b => b
  | .memberExpression, .memberExpression _ b => b
  | .arrayPattern, .arrayPattern _ b => b
  | .objectPattern, .objectPattern _ b => b
  | .assignmentProperty, .assignmentProperty _ b => b
  | .assignmentPattern, .assignmentPattern _ b => b
  | .restElement, .restElement _ b => b
  | k, _ => .blank k

end Node

/-- One call on a node of a kind. -/
inductive Call (k : Kind) where
  /-- an edit of the structure itself -/
  | direct (e : Edit k)
  /-- a write of an end of the location, through a place that holds the node -/
  | through {r : Role} (admitted : r.admits k = true) (e : End) (p : Position)

namespace Call

variable {k : Kind}

/-- What the call asks for. -/
def request : Call k → Edit k
  | .direct e => e
  | .through _ e p => .location e p

/-- Performs a call. -/
def perform : Call k → InPlace (Body k) Unit
  | .direct e => e.apply
  | .through h e p => fun b =>
    let t := Node.writeEnd e p (Node.ofBody k h b)
    ⟨t.after.bodyAs k, t.result⟩

/-- Performs calls one after the other, whether or not they are refused. -/
def run (calls : List (Call k)) (b : Body k) : Body k :=
  calls.foldl (fun b call => (call.perform b).after) b

/-- A write through a place is a write to the structure that stands there. -/
theorem perform_eq_apply (call : Call k) : call.perform = call.request.apply := by
  cases call with
  | direct e => rfl
  | through h e p =>
    funext b
    cases k <;> rfl

/-- The cell holds the content after a run: the argument of the last call that addresses it and
fits, or what it held before if there is none. -/
def Holds (calls : List (Call k)) (a : Cell k) (initial v : a.Content) : Prop :=
  (∃ before call after, calls = before ++ call :: after ∧ call.request.Fits ∧
      call.request.Argument a v ∧
        ∀ later ∈ after, later.request.cell = a → ¬ later.request.Fits) ∨
    (∀ call ∈ calls, call.request.cell = a → ¬ call.request.Fits) ∧ v = initial

/-- One call: the cell that it addresses holds its argument if it fits, and all else stays. -/
theorem get_perform (call : Call k) (b : Body k) (a : Cell k) :
    (call.request.Fits ∧ call.request.Argument a (a.get (call.perform b).after)) ∨
      (call.request.cell = a → ¬ call.request.Fits) ∧ a.get (call.perform b).after = a.get b := by
  rw [perform_eq_apply]
  by_cases hfits : call.request.Fits
  · obtain ⟨-, hargument, hother⟩ := Edit.apply_of_fits hfits b
    by_cases ha : a = call.request.cell
    · subst ha
      exact .inl ⟨hfits, hargument⟩
    · exact .inr ⟨fun hcell => absurd hcell.symm ha, hother a ha⟩
  · obtain ⟨f, -, -, hafter⟩ := Edit.apply_of_not_fits hfits b
    rw [hafter]
    exact .inr ⟨fun _ => hfits, rfl⟩

/-- A run of calls leaves in every cell what it is said to hold. -/
theorem holds_run (calls : List (Call k)) (b : Body k) (a : Cell k) :
    Holds calls a (a.get b) (a.get (run calls b)) := by
  induction calls generalizing b with
  | nil => exact .inr ⟨fun call hcall => absurd hcall List.not_mem_nil, rfl⟩
  | cons call rest ih =>
    change Holds (call :: rest) a (a.get b) (a.get (run rest (call.perform b).after))
    rcases ih (call.perform b).after with ⟨before, last, after, rfl, hlast⟩ | ⟨hnone, heq⟩
    · -- a later call decides
      exact .inl ⟨call :: before, last, after, rfl, hlast⟩
    · rw [heq]
      rcases get_perform call b a with ⟨hfits, hargument⟩ | ⟨hunfit, hsame⟩
      · exact .inl ⟨[], call, rest, rfl, hfits, hargument, hnone⟩
      · refine .inr ⟨?_, hsame⟩
        rw [List.forall_mem_cons]
        exact ⟨hunfit, hnone⟩

/-- What a cell is said to hold after a run is determined. -/
theorem Holds.unique {calls : List (Call k)} {a : Cell k} {initial v w : a.Content}
    (hv : Holds calls a initial v) (hw : Holds calls a initial w) : v = w := by
  -- a last call that fits is among the calls, so it cannot be that none does
  have hsome {before after : List (Call k)} {call : Call k} {u : a.Content}
      (hfits : call.request.Fits) (hargument : call.request.Argument a u)
      (hnone : ∀ c ∈ before ++ call :: after, c.request.cell = a → ¬ c.request.Fits) : False :=
    hnone call (by simp) hargument.cell_eq hfits
  rcases hv with ⟨before, call, after, rfl, hfits, hargument, hlater⟩ | ⟨hnone, rfl⟩
  · rcases hw with ⟨before', call', after', heq, hfits', hargument', hlater'⟩ | ⟨hnone, -⟩
    · rcases List.append_eq_append_iff.mp heq with ⟨between, -, hbetween⟩ | ⟨between, -, hbetween⟩
      · cases between with
        | nil =>
          obtain ⟨rfl, -⟩ := List.cons.inj hbetween
          exact hargument.unique hargument'
        | cons c between =>
          obtain ⟨-, rfl⟩ := List.cons.inj hbetween
          exact absurd hfits' (hlater call' (by simp) hargument'.cell_eq)
      · cases between with
        | nil =>
          obtain ⟨rfl, -⟩ := List.cons.inj hbetween
          exact hargument.unique hargument'
        | cons c between =>
          obtain ⟨-, rfl⟩ := List.cons.inj hbetween
          exact absurd hfits (hlater' call (by simp) hargument.cell_eq)
    · exact (hsome hfits hargument hnone).elim
  · rcases hw with ⟨before, call, after, rfl, hfits, hargument, -⟩ | ⟨-, rfl⟩
    · exact (hsome hfits hargument hnone).elim
    · rfl

/-- The node after a run is the one whose cells hold what they are said to. -/
theorem run_eq_iff_holds {calls : List (Call k)} {b b' : Body k} :
    run calls b = b' ↔ ∀ a, Holds calls a (a.get b) (a.get b') := by
  refine ⟨?_, ?_⟩
  · rintro rfl a
    exact holds_run calls b a
  · intro h
    exact Cell.ext fun a => (holds_run calls b a).unique (h a)

/-- What a call does to a cell depends on what that cell held only. -/
theorem get_perform_congr (call : Call k) {a : Cell k} {b b' : Body k} (h : a.get b = a.get b') :
    a.get (call.perform b).after = a.get (call.perform b').after := by
  rcases get_perform call b a with ⟨hfits, hargument⟩ | ⟨hunfit, hsame⟩
  · rcases get_perform call b' a with ⟨-, hargument'⟩ | ⟨hunfit', -⟩
    · exact hargument.unique hargument'
    · exact absurd hfits (hunfit' hargument.cell_eq)
  · rcases get_perform call b' a with ⟨hfits', hargument'⟩ | ⟨-, hsame'⟩
    · exact absurd hfits' (hunfit hargument'.cell_eq)
    · rw [hsame, hsame', h]

/-- Only the calls that address a cell count for it. -/
theorem get_run_filter (calls : List (Call k)) {a : Cell k} {b b' : Body k}
    (h : a.get b = a.get b') :
    a.get (run calls b) = a.get (run (calls.filter (·.request.cell = a)) b') := by
  induction calls generalizing b b' with
  | nil => exact h
  | cons call rest ih =>
    change a.get (run rest (call.perform b).after) = _
    by_cases hcell : call.request.cell = a
    · rw [List.filter_cons_of_pos (by simpa using hcell)]
      exact ih (get_perform_congr call h)
    · rw [List.filter_cons_of_neg (by simpa using hcell)]
      refine ih ?_
      rcases get_perform call b a with ⟨-, hargument⟩ | ⟨-, hsame⟩
      · exact absurd hargument.cell_eq hcell
      · rw [hsame, h]

/-- Runs that agree on the calls for each cell end with the same node. -/
theorem run_eq_of_filter_eq {calls calls' : List (Call k)}
    (h : ∀ a, calls.filter (·.request.cell = a) = calls'.filter (·.request.cell = a)) (b : Body k) :
    run calls b = run calls' b :=
  Cell.ext fun a => by rw [get_run_filter calls rfl, h a, ← get_run_filter calls' rfl]

/-- A call succeeds exactly when what it asks for fits; otherwise it leaves the node as it was, with
a fault that names the field. -/
theorem perform_outcome (call : Call k) (b : Body k) :
    ((call.perform b).result.outcome = .ok () ↔ call.request.Fits) ∧
      ∀ f, (call.perform b).result.outcome = .error f →
        (call.perform b).after = b ∧ f.cause.field? = some call.request.cell.field := by
  rw [perform_eq_apply]
  by_cases hfits : call.request.Fits
  · obtain ⟨hok, -, -⟩ := Edit.apply_of_fits hfits b
    rw [hok]
    exact ⟨iff_of_true rfl hfits, fun f hf => by cases hf⟩
  · obtain ⟨f, hf, hfield, hafter⟩ := Edit.apply_of_not_fits hfits b
    rw [hf]
    refine ⟨iff_of_false (by simp) hfits, ?_⟩
    rintro _ ⟨⟩
    exact ⟨hafter, hfield⟩

/-- **Setters are atomic and independent.** After any calls on a node, each of its cells holds the
argument of the last call that addressed it and succeeded, and there is only one such node. A call
succeeds when its candidates have the capability of the field, and a call that does not changes
nothing and names the field. Calls that address different cells can be reordered. -/
theorem run_atomic_independent (b : Body k) (calls : List (Call k)) :
    (∀ b', run calls b = b' ↔ ∀ a, Holds calls a (a.get b) (a.get b')) ∧
      (∀ (call : Call k) (c : Body k),
        ((call.perform c).result.outcome = .ok () ↔ call.request.Fits) ∧
          ∀ f, (call.perform c).result.outcome = .error f →
            (call.perform c).after = c ∧ f.cause.field? = some call.request.cell.field) ∧
      ∀ calls', (∀ a, calls.filter (·.request.cell = a) = calls'.filter (·.request.cell = a)) →
        run calls b = run calls' b :=
  ⟨fun _ => run_eq_iff_holds, perform_outcome, fun _ h => run_eq_of_filter_eq h b⟩

end Call

end PatternTree
