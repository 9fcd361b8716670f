import Mathlib.Data.List.Infix
import PatternTree.Node.Edit
import PatternTree.Token

/-!
# Runs of writes to a location

A location is filled by writes of its two ends, in any order and as often as the client likes. It
may stand by itself or belong to a token or a node, and a write may go to the location or through
its owner.

* One write stores its position, keeps the other end and all else of the owner, and reports the
  location that it leaves if that is out of order (`Owner.write_eq`). It does not matter which way
  it goes.
* So after a run each end holds the position of the last write to it, and every write reports the
  state right after it and nothing else (`Owner.run_writes`).
-/

namespace PatternTree

/-- What a location belongs to. -/
inductive Owner where
  /-- nothing: the location stands by itself -/
  | location
  /-- a token -/
  | token
  /-- the structure of a node of a kind -/
  | body (k : Kind)
  /-- a tree in a place of a role, at its root -/
  | tree (r : Role)

/-- Which way a write gets to the location. -/
inductive Route where
  /-- it is made to the location itself -/
  | direct
  /-- it is made to the owner, which passes it on -/
  | through

/-- A call that sets one end of a location. -/
structure Write where
  /-- which way it goes -/
  route : Route
  /-- the end that it sets -/
  target : End
  /-- what it sets the end to -/
  position : Position

namespace Write

/-- The position of the last write to an end. -/
def last? (ws : List Write) (e : End) : Option Position :=
  (ws.filter (·.target = e)).getLast?.map (·.position)

/-- The location that writes make of an unset one. -/
def result (ws : List Write) : Location :=
  ⟨last? ws .start, last? ws .stop⟩

@[simp] theorem read_result (ws : List Write) (e : End) : (result ws).read e = last? ws e := by
  cases e <;> rfl

/-- One more write decides about its own end. -/
theorem last?_concat (ws : List Write) (w : Write) (e : End) :
    last? (ws ++ [w]) e = if w.target = e then some w.position else last? ws e := by
  unfold last?
  rw [List.filter_append]
  by_cases h : w.target = e
  · simp [h]
  · simp [h]

theorem isSome_last?_iff {ws : List Write} {e : End} :
    (last? ws e).isSome = true ↔ ∃ w ∈ ws, w.target = e := by
  simp [last?]

end Write

namespace Location

theorem ext_read {l l' : Location} (h : ∀ e, l.read e = l'.read e) : l = l' := by
  obtain ⟨start, stop⟩ := l
  obtain ⟨start', stop'⟩ := l'
  have hstart : start = start' := h .start
  have hstop : stop = stop' := h .stop
  rw [hstart, hstop]

theorem isComplete_iff (l : Location) : l.isComplete = true ↔ ∀ e, (l.read e).isSome = true := by
  unfold isComplete
  rw [Bool.and_eq_true]
  refine ⟨?_, fun h => ⟨h .start, h .stop⟩⟩
  rintro ⟨hstart, hstop⟩ e
  cases e with
  | start => exact hstart
  | stop => exact hstop

/-- What is reported about a location: nothing if it is ordered, else one event with its two
offsets. -/
theorem warnings_cases (l : Location) :
    l.isOrdered = true ∧ l.warnings = [] ∨
      l.isOrdered = false ∧ ∃ s t, l.start = some s ∧ l.stop = some t ∧
        l.warnings = [.outOfOrder s.offset t.offset] := by
  cases h : l.isOrdered with
  | true => exact .inl ⟨rfl, l.warnings_eq_nil_iff.mpr h⟩
  | false =>
    refine .inr ⟨rfl, ?_⟩
    have hne : l.warnings ≠ [] := fun hnil => by simp [l.warnings_eq_nil_iff.mp hnil] at h
    obtain ⟨start, stop⟩ := l
    cases start with
    | none => exact absurd rfl hne
    | some s =>
      cases stop with
      | none => exact absurd rfl hne
      | some t =>
        refine ⟨s, t, rfl, rfl, ?_⟩
        by_cases hlt : t.offset < s.offset
        · exact if_pos hlt
        · exact absurd (if_neg hlt) hne

end Location

/-- A write to the location inside a value. -/
theorem writeEnd_eq {σ : Type} (location : σ → Location) (relocate : σ → Location → σ) (e : End)
    (p : Position) (s : σ) :
    writeEnd location relocate e p s =
      ⟨relocate s ((location s).write e p), ((location s).write e p).warnings, .ok ()⟩ := by
  have hevents := (location s).events_set e p
  change Changed.mk _ (Traced.mk (((location s).set e p).events ++ []) _) = _
  rw [List.append_nil, hevents]
  rfl

namespace Token

/-- Sets an end of the location of a token in place. -/
def setInPlace (e : End) (p : Position) : InPlace Token Unit := do
  let t ← InPlace.look
  let t' ← InPlace.check (t.set e p)
  InPlace.update fun _ => t'

theorem setInPlace_eq (t : Token) (e : End) (p : Position) :
    setInPlace e p t =
      ⟨{ t with location := t.location.write e p }, (t.location.write e p).warnings, .ok ()⟩ := by
  have hset : (t.set e p).events = (t.location.write e p).warnings := by
    change (t.location.set e p).events ++ [] = _
    rw [List.append_nil, Location.events_set]
  change Changed.mk _ (Traced.mk ((t.set e p).events ++ []) _) = _
  rw [List.append_nil, hset]
  rfl

end Token

namespace Owner

/-- The values of a kind of owner. -/
def Value : Owner → Type
  | .location => Location
  | .token => Token
  | .body k => Body k
  | .tree r => Node r

/-- The location of a value. -/
def locationOf : (o : Owner) → o.Value → Location
  | .location => id
  | .token => Token.location
  | .body _ => Body.location
  | .tree _ => Node.location

/-- The same value at another location. -/
def relocate : (o : Owner) → o.Value → Location → o.Value
  | .location => fun _ l => l
  | .token => fun t l => { (t : Token) with location := l }
  | .body _ => Body.relocate
  | .tree _ => Node.relocate

/-- The setter of an end that an owner offers. -/
def setEnd : (o : Owner) → End → Position → InPlace o.Value Unit
  | .location, e, p => PatternTree.writeEnd id (fun _ l => l) e p
  | .token, e, p => Token.setInPlace e p
  | .body _, e, p => (Edit.location e p).apply
  | .tree _, e, p => Node.writeEnd e p

/-- Performs a write. -/
def write (o : Owner) (w : Write) : InPlace o.Value Unit :=
  match w.route with
  | .direct => PatternTree.writeEnd o.locationOf o.relocate w.target w.position
  | .through => o.setEnd w.target w.position

/-- Performs writes one after the other, up to the first that is refused. -/
def run (o : Owner) (ws : List Write) : InPlace o.Value Unit :=
  ws.forM o.write

variable {o : Owner}

@[simp] theorem locationOf_relocate (v : o.Value) (l : Location) :
    o.locationOf (o.relocate v l) = l := by
  cases o with
  | location => rfl
  | token => rfl
  | body k => exact Body.location_relocate v l
  | tree r => cases v <;> rfl

@[simp] theorem relocate_relocate (v : o.Value) (l l' : Location) :
    o.relocate (o.relocate v l) l' = o.relocate v l' := by
  cases o with
  | location => rfl
  | token => rfl
  | body k => cases k <;> rfl
  | tree r => cases v <;> rfl

theorem relocate_locationOf (v : o.Value) : o.relocate v (o.locationOf v) = v := by
  cases o with
  | location => rfl
  | token => rfl
  | body k => cases k <;> rfl
  | tree r => cases v <;> rfl

/-- One write, whichever way it goes. -/
theorem write_eq (w : Write) (v : o.Value) :
    o.write w v =
      ⟨o.relocate v ((o.locationOf v).write w.target w.position),
        ((o.locationOf v).write w.target w.position).warnings, .ok ()⟩ := by
  obtain ⟨route, e, p⟩ := w
  cases route with
  | direct => exact writeEnd_eq o.locationOf o.relocate e p v
  | through =>
    cases o with
    | location => exact writeEnd_eq _ _ e p v
    | token => exact Token.setInPlace_eq v e p
    | body k => exact writeEnd_eq _ _ e p v
    | tree r => exact writeEnd_eq _ _ e p v

theorem run_nil (v : o.Value) : o.run [] v = ⟨v, [], .ok ()⟩ := rfl

theorem run_cons (w : Write) (ws : List Write) (v : o.Value) :
    o.run (w :: ws) v =
      ⟨(o.run ws (o.write w v).after).after,
        (o.write w v).result.events ++ (o.run ws (o.write w v).after).result.events,
        (o.run ws (o.write w v).after).result.outcome⟩ := by
  change InPlace.bind (o.write w) (fun _ => o.run ws) v = _
  unfold InPlace.bind
  rw [write_eq]

/-- One more write works on what the others have left. -/
theorem run_concat (ws : List Write) (w : Write) (v : o.Value) :
    o.run (ws ++ [w]) v =
      ⟨(o.write w (o.run ws v).after).after,
        (o.run ws v).result.events ++ (o.write w (o.run ws v).after).result.events, .ok ()⟩ := by
  induction ws generalizing v with
  | nil =>
    rw [List.nil_append, run_cons, run_nil, run_nil, List.append_nil, List.nil_append]
  | cons first ws ih => rw [List.cons_append, run_cons, ih, run_cons, List.append_assoc]

/-- No run is refused. -/
theorem outcome_run (ws : List Write) (v : o.Value) : (o.run ws v).result.outcome = .ok () := by
  cases ws using List.reverseRecOn with
  | nil => rfl
  | append_singleton ws w => rw [run_concat]

/-- A run on an unset location stores the last position for each end, and changes nothing else. -/
theorem after_run {v : o.Value} (h : o.locationOf v = .unset) (ws : List Write) :
    (o.run ws v).after = o.relocate v (Write.result ws) := by
  induction ws using List.reverseRecOn with
  | nil =>
    change v = o.relocate v .unset
    rw [← h, relocate_locationOf]
  | append_singleton ws w ih =>
    have hresult : (Write.result ws).write w.target w.position = Write.result (ws ++ [w]) := by
      refine Location.ext_read fun e => ?_
      rw [Write.read_result, Write.last?_concat]
      by_cases he : w.target = e
      · rw [if_pos he, ← he, Location.read_write_self]
      · rw [if_neg he, Location.read_write_of_ne _ he, Write.read_result]
    rw [run_concat, write_eq, ih, locationOf_relocate, relocate_relocate, hresult]

/-- The location after a run on an unset one. -/
theorem locationOf_run {v : o.Value} (h : o.locationOf v = .unset) (ws : List Write) :
    o.locationOf (o.run ws v).after = Write.result ws := by
  rw [after_run h, locationOf_relocate]

/-- The last write of a run reports the location that the run leaves. -/
theorem events_write_run {v : o.Value} (h : o.locationOf v = .unset) (ws : List Write) (w : Write) :
    (o.write w (o.run ws v).after).result.events = (Write.result (ws ++ [w])).warnings := by
  rw [← locationOf_run h, run_concat, write_eq, locationOf_relocate]

theorem countP_warnings (l : Location) :
    l.warnings.countP (·.level = .warn) = if l.isOrdered then 0 else 1 := by
  rcases l.warnings_cases with ⟨hordered, hnil⟩ | ⟨hordered, s, t, -, -, hevents⟩
  · rw [hordered, hnil]
    rfl
  · rw [hordered, hevents]
    rfl

/-- There are as many warnings as states that are not ordered. -/
theorem countP_events_run {v : o.Value} (h : o.locationOf v = .unset) (ws : List Write) :
    (o.run ws v).result.events.countP (·.level = .warn) =
      ws.inits.tail.countP fun done => !(o.locationOf (o.run done v).after).isOrdered := by
  induction ws using List.reverseRecOn with
  | nil => rfl
  | append_singleton ws w ih =>
    have hinits : (ws ++ [w]).inits.tail = ws.inits.tail ++ [ws ++ [w]] := by
      have hne : ws.inits ≠ [] := List.ne_nil_of_mem ((List.mem_inits [] ws).mpr List.nil_prefix)
      rw [List.inits_append, List.tail_append_of_ne_nil hne]
      rfl
    rw [hinits, List.countP_append, ← ih, List.countP_singleton, locationOf_run h, run_concat,
      List.countP_append, events_write_run h, countP_warnings]
    cases (Write.result (ws ++ [w])).isOrdered <;> rfl

/-- **Location writes and their warnings.** Take any writes to an unset location, by itself or in an
owner. After each prefix of them both ends hold the position of the last write to them, and the
location is complete when both have been written. The last write of a prefix succeeds; it reports
nothing if the location that it leaves is ordered, and one warning with the two offsets otherwise.
So there are as many warnings as prefixes that leave a location out of order. Nothing but the
location changes. -/
theorem run_writes {v : o.Value} (unset : o.locationOf v = .unset) (ws : List Write) :
    (∀ done, done <+: ws →
      (∀ e, (o.locationOf (o.run done v).after).read e = Write.last? done e) ∧
        ((o.locationOf (o.run done v).after).isComplete = true ↔
          ∀ e, ∃ w ∈ done, w.target = e)) ∧
      (∀ done w, done ++ [w] <+: ws →
        let call := o.write w (o.run done v).after
        let l := o.locationOf call.after
        call.after = (o.run (done ++ [w]) v).after ∧ call.result.outcome = .ok () ∧
          (l.isOrdered = true ∧ call.result.events = [] ∨
            l.isOrdered = false ∧ ∃ s t, l.start = some s ∧ l.stop = some t ∧
              call.result.events = [.outOfOrder s.offset t.offset])) ∧
      (o.run ws v).result.events.countP (·.level = .warn) =
        (ws.inits.tail.countP fun done => !(o.locationOf (o.run done v).after).isOrdered) ∧
      (o.run ws v).result.outcome = .ok () ∧
      (o.run ws v).after = o.relocate v ⟨Write.last? ws .start, Write.last? ws .stop⟩ := by
  refine ⟨?_, ?_, countP_events_run unset ws, outcome_run ws v, after_run unset ws⟩
  · intro done _
    rw [locationOf_run unset]
    refine ⟨Write.read_result done, ?_⟩
    rw [Location.isComplete_iff]
    exact forall_congr' fun e => by rw [Write.read_result, Write.isSome_last?_iff]
  · intro done w _
    have hafter : (o.write w (o.run done v).after).after = (o.run (done ++ [w]) v).after := by
      rw [run_concat]
    refine ⟨hafter, by rw [write_eq], ?_⟩
    rw [hafter, events_write_run unset, locationOf_run unset]
    exact Location.warnings_cases _

/-- Writes that cross and are corrected: the end is first put before the start, then behind it. -/
def crossed : List Write :=
  [⟨.direct, .start, ⟨1, 10, 10⟩⟩, ⟨.through, .stop, ⟨1, 2, 2⟩⟩, ⟨.direct, .stop, ⟨1, 12, 12⟩⟩]

theorem crossed_warns_once :
    (tree .any).locationOf (Node.blank .restElement) = .unset ∧ crossed.take 2 <+: crossed ∧
      ((tree .any).locationOf
        ((tree .any).run (crossed.take 2) (Node.blank .restElement)).after).stop =
        some ⟨1, 2, 2⟩ ∧
      ((tree .any).run crossed (Node.blank .restElement)).result.events.countP
      (·.level = .warn) = 1 := by
  obtain ⟨hstate, -, hcount, -, -⟩ :=
    run_writes (o := tree .any) (v := Node.blank .restElement) rfl crossed
  have htake : crossed.take 2 <+: crossed := List.take_prefix 2 crossed
  refine ⟨rfl, htake, (hstate _ htake).1 .stop, ?_⟩
  rw [hcount]
  decide

end Owner

end PatternTree
