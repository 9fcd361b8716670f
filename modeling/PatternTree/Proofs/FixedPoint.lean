import PatternTree.Proofs.RoundTrip

/-!
# Documents that come back as they are

A tree that is exported, read and exported again has the same document as before, numbers in the
same form included. What the first export loses of a literal is lost for good, since a normal form
is shown as the value that it stands for (`LiteralValue.toDocument_normal`). A location is shown
again unless its range was all that was shown of it: ranges are computed from the locations that
were read back, so in a document with ranges and without locations they are gone the second time.
-/

namespace PatternTree

namespace LiteralValue

/-- A value and its normal form have one document. -/
theorem toDocument_normal (v : LiteralValue) : v.normal.toDocument = v.toDocument := by
  cases v with
  | null => rfl
  | bool b => rfl
  | string s => rfl
  | number x =>
    cases x with
    | nan => rfl
    | infinite negative => rfl
    | finite negative m =>
      rw [normal]
      split
      · next hm =>
        -- either zero is written as an integer
        have hzero (sign : Bool) :
            (Number.finite sign .zero).toDocument = .number (.integer 0) := by
          rw [Number.toDocument, Number.safeInteger?_zero]
        exact hm ▸ (hzero false).trans (hzero negative).symm
      · rfl

end LiteralValue

namespace Location

/-- What is shown of a location can be shown again after it was read. -/
def Lasts (settings : Settings) (l : Location) : Prop :=
  settings.locations = true ∨ settings.ranges = false ∨ l.isComplete = false

/-- A location and its normal form are shown alike exactly when it lasts. -/
theorem toFields_normal_iff {settings : Settings} {l : Location} :
    (l.normal settings).toFields settings = l.toFields settings ↔ l.Lasts settings := by
  obtain ⟨locations, ranges⟩ := settings
  obtain ⟨start, stop⟩ := l
  cases locations with
  | true => exact iff_of_true rfl (.inl rfl)
  | false =>
    cases ranges with
    | false => exact iff_of_true rfl (.inr (.inl rfl))
    | true =>
      -- only the range is shown, and the unset location has none
      cases start <;> cases stop <;> simp [normal, toFields, unset, range?, Lasts, isComplete]

end Location

/-- The object of a node is shown again when its location lasts and its own fields are. -/
theorem nodeObject_normal_iff {settings : Settings} {type : String} {l : Location}
    {fields fields' : Fields} {p : Prop} (hlength : fields'.length = fields.length)
    (hfields : fields' = fields ↔ p) :
    nodeObject settings type (l.normal settings) fields' = nodeObject settings type l fields ↔
      l.Lasts settings ∧ p := by
  rw [← Location.toFields_normal_iff, ← hfields, nodeObject, nodeObject, Document.object.injEq,
    List.cons_append, List.cons_append, List.cons.injEq, and_iff_right rfl]
  refine ⟨fun heq => List.append_inj' heq hlength, ?_⟩
  rintro ⟨hlocation, hfields⟩
  rw [hlocation, hfields]

namespace Node

variable {settings : Settings}

/-- The tree is shown as it was after it was read. -/
def Reshown (settings : Settings) {r : Role} (n : Node r) : Prop :=
  (n.normal settings).toDocument settings = n.toDocument settings

theorem childDocument_normal_iff {r : Role} {n : Option (Node r)}
    (ih : ∀ m, n = some m → (m.Reshown settings ↔ ∀ k ∈ m.nodes, k.location.Lasts settings)) :
    childDocument settings (n.map (normal settings)) = childDocument settings n ↔
      ∀ k ∈ childNodes n, k.location.Lasts settings := by
  cases n with
  | none => simp [childNodes]
  | some m => exact ih m rfl

theorem childDocuments_normal_iff {r : Role} {ns : List (Option (Node r))}
    (ih : ∀ m, some m ∈ ns → (m.Reshown settings ↔ ∀ k ∈ m.nodes, k.location.Lasts settings)) :
    (ns.map (Option.map (normal settings))).map (childDocument settings) =
        ns.map (childDocument settings) ↔
      ∀ k ∈ ns.flatMap childNodes, k.location.Lasts settings := by
  induction ns with
  | nil => simp
  | cons n rest ihrest =>
    rw [List.map_cons, List.map_cons, List.map_cons, List.flatMap_cons, List.cons.injEq,
      List.forall_mem_append,
      childDocument_normal_iff fun m hm => ih m (hm ▸ List.mem_cons_self),
      ihrest fun m hm => ih m (List.mem_cons_of_mem _ hm)]

/-- A tree is shown as it was exactly when all its locations are. -/
theorem reshown_iff_lasts (settings : Settings) {r : Role} (n : Node r) :
    n.Reshown settings ↔ ∀ m ∈ n.nodes, m.location.Lasts settings := by
  -- names, flags and values have one document, so each node is decided by its location and its
  -- children
  induction n using treeInduction with
  | identifier h b =>
    rw [Reshown, normal, toDocument, toDocument, nodes, List.forall_mem_cons]
    exact nodeObject_normal_iff rfl (by simp)
  | literal h b =>
    rw [Reshown, normal, toDocument, toDocument, nodes, List.forall_mem_cons]
    exact nodeObject_normal_iff rfl (by simp [LiteralValue.toDocument_normal])
  | memberExpression h l object property computed ihobject ihproperty =>
    rw [Reshown, normal, toDocument, toDocument, nodes, List.forall_mem_cons,
      List.forall_mem_append, expressionNodes_eq, expressionNodes_eq,
      ← childDocument_normal_iff ihobject, ← childDocument_normal_iff ihproperty]
    exact nodeObject_normal_iff rfl (by simp [expressionDocument_eq, normalExpression_eq])
  | arrayPattern h l elements ih =>
    rw [Reshown, normal, toDocument, toDocument, nodes, List.forall_mem_cons, elementNodes_eq,
      ← childDocuments_normal_iff ih, elementDocuments_eq, elementDocuments_eq, normalElements_eq]
    exact nodeObject_normal_iff rfl (by simp only [List.cons.injEq, Prod.mk.injEq,
      Document.array.injEq, and_true, true_and])
  | objectPattern h l properties ih =>
    rw [Reshown, normal, toDocument, toDocument, nodes, List.forall_mem_cons, propertyNodes_eq,
      ← childDocuments_normal_iff (forall_some_mem_map ih), propertyDocuments_eq,
      propertyDocuments_eq, normalProperties_eq]
    exact nodeObject_normal_iff rfl (by simp only [List.cons.injEq, Prod.mk.injEq,
      Document.array.injEq, and_true, true_and])
  | assignmentProperty h l key value shorthand computed ihkey ihvalue =>
    rw [Reshown, normal, toDocument, toDocument, nodes, List.forall_mem_cons,
      List.forall_mem_append, expressionNodes_eq, patternNodes_eq,
      ← childDocument_normal_iff ihkey, ← childDocument_normal_iff ihvalue]
    exact nodeObject_normal_iff rfl (by simp [expressionDocument_eq, normalExpression_eq,
      patternDocument_eq, normalPattern_eq])
  | assignmentPattern h l left right ihleft ihright =>
    rw [Reshown, normal, toDocument, toDocument, nodes, List.forall_mem_cons,
      List.forall_mem_append, patternNodes_eq, expressionNodes_eq,
      ← childDocument_normal_iff ihleft, ← childDocument_normal_iff ihright]
    exact nodeObject_normal_iff rfl (by simp [expressionDocument_eq, normalExpression_eq,
      patternDocument_eq, normalPattern_eq])
  | restElement h l argument ih =>
    rw [Reshown, normal, toDocument, toDocument, nodes, List.forall_mem_cons, patternNodes_eq,
      ← childDocument_normal_iff ih]
    exact nodeObject_normal_iff rfl (by simp [patternDocument_eq, normalPattern_eq])

/-- **Exported documents are fixed points.** The document of a tree is read as a tree with that same
document, unless it shows ranges without locations and a node has a complete location. -/
theorem toDocument_of_ofDocument (settings : Settings) (n : AnyNode) :
    ∃ m, (ofDocument (n.toDocument settings)).outcome = .ok m ∧
      (m.toDocument settings = n.toDocument settings ↔
        settings.locations = true ∨ settings.ranges = false ∨
          ∀ k ∈ n.nodes, k.location.isComplete = false) := by
  have hread : Denotes (n.toDocument settings) (n.normal settings) := by
    rw [← widen_any (n.normal settings)]
    exact denotes_toDocument settings n
  refine ⟨n.normal settings, (readExactly _ _ _).mpr hread, (reshown_iff_lasts settings n).trans ?_⟩
  simp only [Location.Lasts]
  by_cases hlocations : settings.locations = true
  · simp [hlocations]
  · by_cases hranges : settings.ranges = false
    · simp [hranges]
    · simp [hlocations, hranges]

end Node

end PatternTree
