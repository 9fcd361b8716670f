import PatternTree.Export
import PatternTree.Proofs.Log

/-!
# Counting the events of an import

The log of a tree interleaves the events of its nodes: a node is announced before its children and
closes after them. Up to that order each node contributes the same events wherever it stands, its
announcement and `Node.closing`. `Node.filterMap_log_perm` says so for whatever is looked at in the
events, as long as one announcement looks like another.

So there are as many announcements as nodes (`Node.countP_log_isReading`), and a location that is
out of order warns as often as it is read (`Node.filter_log_isWarning_perm`).
-/

namespace PatternTree

namespace Event

/-- The event announces a node. -/
def isReading : Event → Bool
  | .readingNode _ _ => true
  | _ => false

/-- A mark for each announcement, whatever it says. -/
def mark : Event → Option Unit
  | .readingNode _ _ => some ()
  | _ => none

theorem isSome_mark (e : Event) : e.mark.isSome = e.isReading := by
  cases e <;> rfl

/-- The event is something that a client should look at. -/
def isWarning (e : Event) : Bool :=
  e.level == .warn

end Event

namespace Kind

/-- How often the location of a node of the kind is read. -/
def locationReads : Kind → Nat
  | .identifier => 2
  | .literal => 2
  | _ => 1

end Kind

namespace Node

/-- What is reported of a node itself, besides its announcement. -/
def closing : AnyNode → List Event
  | .identifier _ b => b.location.warnings ++ b.location.warnings
  | .literal _ b => b.location.warnings ++ b.location.warnings
  | .memberExpression _ b => b.location.warnings
  | .arrayPattern _ b => .validated "elements" b.elements.length .pattern :: b.location.warnings
  | .objectPattern _ b =>
    .validated "properties" b.properties.length .patternProperty :: b.location.warnings
  | .assignmentProperty _ b => b.location.warnings
  | .assignmentPattern _ b => b.location.warnings
  | .restElement _ b => b.location.warnings

/-! ## The events of single nodes -/

section

variable {α : Type} {view : Event → Option α} {v : Option α}

/-- What is seen of a single node. -/
def share (view : Event → Option α) (v : Option α) (m : AnyNode) : List α :=
  v.toList ++ m.closing.filterMap view

/-- A node closes after its children, which makes no difference up to order. -/
theorem filterMap_announced_perm (announced : ∀ tag field, view (.readingNode tag field) = v)
    {tag field : String} {children : List Event} {below : List AnyNode} (m : AnyNode)
    (h : (children.filterMap view).Perm (below.flatMap (share view v))) :
    ((.readingNode tag field :: (children ++ m.closing)).filterMap view).Perm
      ((m :: below).flatMap (share view v)) := by
  have hfirst : (.readingNode tag field :: (children ++ m.closing)).filterMap view =
      v.toList ++ (children.filterMap view ++ m.closing.filterMap view) := by
    rw [List.filterMap_cons, announced, List.filterMap_append]
    cases v <;> rfl
  rw [hfirst, List.flatMap_cons, share, List.append_assoc]
  exact List.Perm.append_left _ (List.perm_append_comm.trans (List.Perm.append_left _ h))

theorem filterMap_append_perm {first second : List Event} {ms ms' : List AnyNode}
    (h : (first.filterMap view).Perm (ms.flatMap (share view v)))
    (h' : (second.filterMap view).Perm (ms'.flatMap (share view v))) :
    ((first ++ second).filterMap view).Perm ((ms ++ ms').flatMap (share view v)) := by
  rw [List.filterMap_append, List.flatMap_append]
  exact h.append h'

/-- What is seen of the events of a tree is what is seen of its nodes. -/
def Shared (view : Event → Option α) (v : Option α) {r : Role} (n : Node r) : Prop :=
  ∀ field d, ((n.log field d).filterMap view).Perm (n.nodes.flatMap (share view v))

theorem filterMap_childLog_perm {c : Capability} {n : Option (Node (.only c))}
    (ih : ∀ m, n = some m → m.Shared view v) (place : Place) (d : Document) :
    ((childLog place d n).filterMap view).Perm ((childNodes n).flatMap (share view v)) := by
  cases n with
  | none => exact .refl _
  | some m => exact ih m rfl _ _

theorem filterMap_entriesLog_perm {c : Capability} {ns : List (Option (Node (.only c)))}
    (ih : ∀ m, some m ∈ ns → m.Shared view v) (field : String) (index : Nat) (d : Document) :
    ((entriesLog field d index ns).filterMap view).Perm
      ((ns.flatMap childNodes).flatMap (share view v)) := by
  induction ns generalizing index with
  | nil => exact .refl _
  | cons n rest ihrest =>
    rw [entriesLog, List.flatMap_cons]
    refine filterMap_append_perm (filterMap_childLog_perm (fun m hm => ?_) _ d)
      (ihrest (fun m hm => ?_) _)
    · exact ih m (hm ▸ List.mem_cons_self)
    · exact ih m (List.mem_cons_of_mem _ hm)

/-- The events of a tree are those of its nodes, up to their order and the wording of
announcements. -/
theorem filterMap_log_perm (announced : ∀ tag field, view (.readingNode tag field) = v) {r : Role}
    (n : Node r) : n.Shared view v := by
  induction n using treeInduction with
  | identifier h b =>
    intro field d
    have hchildren : (([] : List Event).filterMap view).Perm ([].flatMap (share view v)) := .refl _
    rw [log, nodes]
    exact filterMap_announced_perm announced (widen (.identifier h b)) hchildren
  | literal h b =>
    intro field d
    have hchildren : (([] : List Event).filterMap view).Perm ([].flatMap (share view v)) := .refl _
    rw [log, nodes]
    exact filterMap_announced_perm announced (widen (.literal h b)) hchildren
  | memberExpression h l object property computed ihobject ihproperty =>
    intro field d
    have hchildren := filterMap_append_perm (filterMap_childLog_perm ihobject ⟨"object", none⟩ d)
      (filterMap_childLog_perm ihproperty ⟨"property", none⟩ d)
    rw [log, nodes, expressionLog_eq, expressionLog_eq, expressionNodes_eq, expressionNodes_eq]
    exact filterMap_announced_perm announced
      (widen (.memberExpression h ⟨l, object, property, computed⟩)) hchildren
  | arrayPattern h l elements ih =>
    intro field d
    rw [log, nodes, elementsLog_eq, elementNodes_eq]
    exact filterMap_announced_perm announced (widen (.arrayPattern h ⟨l, elements⟩))
      (filterMap_entriesLog_perm ih _ 0 d)
  | objectPattern h l properties ih =>
    intro field d
    rw [log, nodes, propertiesLog_eq, propertyNodes_eq]
    exact filterMap_announced_perm announced (widen (.objectPattern h ⟨l, properties⟩))
      (filterMap_entriesLog_perm (forall_some_mem_map ih) _ 0 d)
  | assignmentProperty h l key value shorthand computed ihkey ihvalue =>
    intro field d
    have hchildren := filterMap_append_perm (filterMap_childLog_perm ihkey ⟨"key", none⟩ d)
      (filterMap_childLog_perm ihvalue ⟨"value", none⟩ d)
    rw [log, nodes, expressionLog_eq, patternLog_eq, expressionNodes_eq, patternNodes_eq]
    exact filterMap_announced_perm announced
      (widen (.assignmentProperty h ⟨l, key, value, shorthand, computed⟩)) hchildren
  | assignmentPattern h l left right ihleft ihright =>
    intro field d
    have hchildren := filterMap_append_perm (filterMap_childLog_perm ihleft ⟨"left", none⟩ d)
      (filterMap_childLog_perm ihright ⟨"right", none⟩ d)
    rw [log, nodes, patternLog_eq, expressionLog_eq, patternNodes_eq, expressionNodes_eq]
    exact filterMap_announced_perm announced (widen (.assignmentPattern h ⟨l, left, right⟩))
      hchildren
  | restElement h l argument ih =>
    intro field d
    rw [log, nodes, patternLog_eq, patternNodes_eq]
    exact filterMap_announced_perm announced (widen (.restElement h ⟨l, argument⟩))
      (filterMap_childLog_perm ih ⟨"argument", none⟩ d)

end

/-! ## Announcements and warnings -/

/-- A node closes without announcing anything. -/
theorem isReading_of_mem_closing {m : AnyNode} {e : Event} (h : e ∈ m.closing) :
    e.isReading = false := by
  have hwarnings {l : Location} (h : e ∈ l.warnings) : e.isReading = false := by
    obtain ⟨s, t, rfl⟩ := Location.eq_outOfOrder_of_mem_warnings h
    rfl
  cases m with
  | identifier | literal => exact (List.mem_append.mp h).elim hwarnings hwarnings
  | arrayPattern | objectPattern =>
    obtain rfl | h := List.mem_cons.mp h
    · rfl
    · exact hwarnings h
  | memberExpression | assignmentProperty | assignmentPattern | restElement => exact hwarnings h

/-- The warnings about a node are those about its location, one for each time that it is read. -/
theorem filter_closing_isWarning (m : AnyNode) :
    m.closing.filter Event.isWarning =
      (List.replicate m.kind.locationReads m.location.warnings).flatten := by
  have hwarnings (l : Location) : l.warnings.filter Event.isWarning = l.warnings := by
    refine List.filter_eq_self.mpr fun e he => ?_
    obtain ⟨s, t, rfl⟩ := Location.eq_outOfOrder_of_mem_warnings he
    rfl
  cases m with
  | identifier | literal =>
    rw [closing, List.filter_append, hwarnings]
    exact congrArg _ (List.append_nil _).symm
  | arrayPattern | objectPattern =>
    rw [closing, List.filter_cons_of_neg Bool.false_ne_true, hwarnings]
    exact (List.append_nil _).symm
  | memberExpression | assignmentProperty | assignmentPattern | restElement =>
    rw [closing, hwarnings]
    exact (List.append_nil _).symm

/-- There are as many announcements in the log of a tree as it has nodes. -/
theorem countP_log_isReading (n : AnyNode) (field : String) (d : Document) :
    (n.log field d).countP Event.isReading = n.nodes.length := by
  have hshare : share Event.mark (some ()) = fun _ => [()] := by
    funext m
    have hclosing : m.closing.filterMap Event.mark = [] := by
      refine List.filterMap_eq_nil_iff.mpr fun e he => ?_
      rw [← Option.isSome_eq_false_iff.trans Option.isNone_iff_eq_none, Event.isSome_mark]
      exact isReading_of_mem_closing he
    rw [share, hclosing]
    rfl
  have hannounced (tag field : String) : Event.mark (.readingNode tag field) = some () := rfl
  have hperm := filterMap_log_perm hannounced n field d
  rw [hshare, ← List.map_eq_flatMap] at hperm
  have hlength := hperm.length_eq
  rw [List.length_filterMap_eq_countP, List.length_map] at hlength
  simpa only [Event.isSome_mark] using hlength

/-- The warnings in the log of a tree are those about the locations of its nodes. -/
theorem filter_log_isWarning_perm (n : AnyNode) (field : String) (d : Document) :
    ((n.log field d).filter Event.isWarning).Perm (n.nodes.flatMap fun m =>
      (List.replicate m.kind.locationReads m.location.warnings).flatten) := by
  have hannounced (tag field : String) :
      Option.guard Event.isWarning (.readingNode tag field) = none := rfl
  have hperm := filterMap_log_perm hannounced n field d
  have hshare : share (Option.guard Event.isWarning) none = fun m : AnyNode =>
      (List.replicate m.kind.locationReads m.location.warnings).flatten := by
    funext m
    rw [share, List.filterMap_eq_filter, filter_closing_isWarning]
    rfl
  rwa [hshare, List.filterMap_eq_filter] at hperm

/-- A successful import is reported by the log of its tree. So every node is announced once, and a
location that is out of order is reported twice for a name or a literal and once for any other
node. -/
theorem events_ofDocument {d : Document} {n : AnyNode} (h : (ofDocument d).outcome = .ok n) :
    (ofDocument d).events = n.log "root" d ∧
      (ofDocument d).events.countP Event.isReading = n.nodes.length ∧
      ((ofDocument d).events.filter Event.isWarning).Perm (n.nodes.flatMap fun m =>
        (List.replicate m.kind.locationReads m.location.warnings).flatten) := by
  have hlog : (ofDocument d).events = n.log "root" d := readLogged d _ n h
  rw [hlog]
  exact ⟨rfl, countP_log_isReading n "root" d, filter_log_isWarning_perm n "root" d⟩

/-- A location that ends before it starts. -/
def backwards : Location :=
  ⟨some ⟨1, 4, 4⟩, some ⟨1, 0, 0⟩⟩

/-- The document of `{: [, a]}`, the outer pattern and the name at a location out of order. -/
def backwardsPattern : Document :=
  .object [("type", .string "ObjectPattern"), ("location", backwards.toDocument),
    ("properties", .array [
      .object [("type", .string "Property"), ("value",
        .object [("type", .string "ArrayPattern"), ("elements", .array [.null,
          .object [("type", .string "Identifier"), ("location", backwards.toDocument),
            ("name", .string "a")]])])]])]

/-- The tree of `backwardsPattern`. -/
def backwardsTree : AnyNode :=
  .objectPattern (Role.any_admits _) { location := backwards, properties := [
    .assignmentProperty (Role.only_admits _ _) {
      value := some (.arrayPattern (Role.only_admits _ _) {
        elements := [none,
          some (.identifier (Role.only_admits _ _) { location := backwards, name := "a" })] }) }] }

/-- The entry is announced under the tag that it has in the document, the absent element is counted,
and the name warns twice. -/
theorem backwardsPattern_events :
    (ofDocument backwardsPattern).outcome = .ok backwardsTree ∧
      (ofDocument backwardsPattern).events =
        [.readingNode "ObjectPattern" "root", .readingNode "Property" "properties",
          .readingNode "ArrayPattern" "value", .readingNode "Identifier" "elements",
          .outOfOrder 4 0, .outOfOrder 4 0, .validated "elements" 2 .pattern,
          .validated "properties" 1 .patternProperty, .outOfOrder 4 0] ∧
      (ofDocument backwardsPattern).events.countP Event.isReading = 4 ∧
      ((ofDocument backwardsPattern).events.filter Event.isWarning).Perm
        [.outOfOrder 4 0, .outOfOrder 4 0, .outOfOrder 4 0] := by
  have hread : (ofDocument backwardsPattern).outcome = .ok backwardsTree := rfl
  obtain ⟨hlog, hcount, hwarnings⟩ := events_ofDocument hread
  exact ⟨hread, hlog.trans rfl, hcount, hwarnings⟩

end Node

end PatternTree
