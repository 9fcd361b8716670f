import PatternTree.Proofs.Acceptance
import PatternTree.Proofs.ExactNumber
import PatternTree.Proofs.Normal

/-!
# Reading back what was written

A tree that is exported and imported again comes back in its normal form under the settings of the
export. The document of a tree denotes its normal form (`Node.denotes_toDocument`), by induction
over the tree, and so the reader gives it back by what is known of all documents.
-/

namespace PatternTree

/-! ## Documents denote normal forms -/

theorem denotesPosition_ofOption (p : Option Position) :
    DenotesPosition (some (.ofOption (p.map (·.toDocument)))) p := by
  cases p with
  | none => exact .null
  | some p => exact .object rfl rfl rfl

/-- A location is shown as itself. -/
theorem denotesLocation_toDocument (l : Location) : DenotesLocation (some l.toDocument) l :=
  .object (denotesPosition_ofOption l.start) (denotesPosition_ofOption l.stop)

theorem denotesValue_toDocument (v : LiteralValue) : DenotesValue v.toDocument v.normal := by
  cases v with
  | null => exact .null
  | bool b => exact .bool b
  | string s => exact .string s
  | number x =>
    cases x with
    | nan => exact .null
    | infinite negative => exact .null
    | finite negative m =>
      rw [LiteralValue.toDocument, Number.toDocument, LiteralValue.normal]
      cases h : (Number.finite negative m).safeInteger? with
      | some k =>
        have hk := Number.ofInt_safeInteger h
        rw [← apply_ite LiteralValue.number, ← hk]
        exact .number (.integer k)
      | none =>
        -- a zero is written as an integer, so the sign of this number is kept
        have hm : m ≠ .zero := by
          rintro rfl
          rw [Number.safeInteger?_zero] at h
          cases h
        rw [if_neg hm]
        exact .number (.real negative m)

/-! ## The fields of an exported node -/

namespace Location

variable {settings : Settings} {l : Location}

/-- A location is shown under its own key, and its range under another. -/
theorem exists_toFields_eq (settings : Settings) (l : Location) :
    ∃ range : Fields, l.toFields settings =
        (if settings.locations then [("location", l.toDocument)] else []) ++ range ∧
      ∀ key, key ≠ "range" → Fields.value? key range = none := by
  refine ⟨_, rfl, fun key h => ?_⟩
  split <;> simp [h.symm]

theorem value?_toFields_of_ne {key : String} (hlocation : key ≠ "location")
    (hrange : key ≠ "range") : Fields.value? key (l.toFields settings) = none := by
  obtain ⟨range, heq, hother⟩ := exists_toFields_eq settings l
  rw [heq, Fields.value?_append, hother key hrange, Option.or_none]
  split <;> simp [hlocation.symm]

theorem value?_location_toFields :
    Fields.value? "location" (l.toFields settings) =
      if settings.locations then some l.toDocument else none := by
  obtain ⟨range, heq, hother⟩ := exists_toFields_eq settings l
  rw [heq, Fields.value?_append, hother _ (by decide), Option.or_none]
  split <;> simp

/-- What is shown of a location denotes its normal form. -/
theorem denotes_toFields (l : Location) :
    DenotesLocation (Fields.value? "location" (l.toFields settings)) (l.normal settings) := by
  rw [value?_location_toFields, normal]
  split
  · exact denotesLocation_toDocument l
  · exact .missing

end Location

/-- The fields of the object of a node. -/
def nodeFields (settings : Settings) (type : String) (l : Location) (fields : Fields) : Fields :=
  ("type", .string type) :: l.toFields settings ++ fields

section

variable {settings : Settings} {type : String} {l : Location} {fields : Fields}

theorem nodeObject_eq :
    nodeObject settings type l fields = .object (nodeFields settings type l fields) :=
  rfl

theorem tagged_nodeFields (t : Tag) : Tagged (nodeFields settings t.name l fields) t :=
  rfl

/-- The fields of a kind are found behind the type and the location. -/
theorem value?_nodeFields {key : String} (htype : key ≠ "type") (hlocation : key ≠ "location")
    (hrange : key ≠ "range") :
    Fields.value? key (nodeFields settings type l fields) = Fields.value? key fields := by
  rw [nodeFields, List.cons_append, Fields.value?_cons, if_neg htype.symm, Fields.value?_append,
    Location.value?_toFields_of_ne hlocation hrange, Option.none_or]

theorem denotesLocation_nodeFields (h : Fields.value? "location" fields = none) :
    DenotesLocation (Fields.value? "location" (nodeFields settings type l fields))
      (l.normal settings) := by
  have hvalue : Fields.value? "location" (nodeFields settings type l fields) =
      Fields.value? "location" (l.toFields settings) := by
    rw [nodeFields, List.cons_append, Fields.value?_cons, if_neg (by decide), Fields.value?_append,
      h, Option.or_none]
  rw [hvalue]
  exact l.denotes_toFields

end

/-! ## Trees -/

namespace Node

variable {settings : Settings}

/-- The document of an optional child. -/
def childDocument (settings : Settings) {r : Role} : Option (Node r) → Document
  | none => .null
  | some n => n.toDocument settings

theorem expressionDocument_eq (settings : Settings) (n : Option Expression) :
    expressionDocument settings n = childDocument settings n := by
  cases n <;> rfl

theorem patternDocument_eq (settings : Settings) (n : Option Pattern) :
    patternDocument settings n = childDocument settings n := by
  cases n <;> rfl

theorem elementDocuments_eq (settings : Settings) (ns : List (Option Pattern)) :
    elementDocuments settings ns = ns.map (childDocument settings) := by
  induction ns with
  | nil => rfl
  | cons n rest ih => rw [elementDocuments, List.map_cons, patternDocument_eq, ih]

theorem propertyDocuments_eq (settings : Settings) (ns : List PatternProperty) :
    propertyDocuments settings ns = (ns.map some).map (childDocument settings) := by
  induction ns with
  | nil => rfl
  | cons n rest ih => rw [propertyDocuments, List.map_cons, List.map_cons, childDocument, ih]

theorem denotesChild_childDocument {c : Capability} {n : Option (Node (.only c))}
    (ih : ∀ m, n = some m → Denotes (m.toDocument settings) (m.normal settings).widen) :
    DenotesChild (some (childDocument settings n)) (n.map (normal settings)) := by
  cases n with
  | none => exact .null
  | some m => exact .present (ih m rfl)

theorem denotesEntries_childDocuments {c : Capability} {ns : List (Option (Node (.only c)))}
    (ih : ∀ m, some m ∈ ns → Denotes (m.toDocument settings) (m.normal settings).widen) :
    DenotesEntries (ns.map (childDocument settings)) (ns.map (Option.map (normal settings))) := by
  induction ns with
  | nil => exact .nil
  | cons n rest ihrest =>
    refine .cons (denotesChild_childDocument fun m hm => ?_) (ihrest fun m hm => ?_)
    · exact ih m (hm ▸ List.mem_cons_self)
    · exact ih m (List.mem_cons_of_mem _ hm)

/-- The document of a tree denotes its normal form. -/
theorem denotes_toDocument (settings : Settings) {r : Role} (n : Node r) :
    Denotes (n.toDocument settings) (n.normal settings).widen := by
  induction n using treeInduction with
  | identifier h b =>
    rw [toDocument, nodeObject_eq]
    refine .identifier (tagged_nodeFields .identifier) (denotesLocation_nodeFields rfl) ?_
    simp [value?_nodeFields]
  | literal h b =>
    rw [toDocument, nodeObject_eq]
    refine .literal (tagged_nodeFields .literal) (denotesLocation_nodeFields rfl) ?_
      (denotesValue_toDocument b.value) ?_
    all_goals simp [value?_nodeFields]
  | memberExpression h l object property computed ihobject ihproperty =>
    rw [toDocument, nodeObject_eq]
    refine .memberExpression (tagged_nodeFields .memberExpression) (denotesLocation_nodeFields rfl)
      ?_ ?_ ?_
    · simpa [value?_nodeFields, expressionDocument_eq, normalExpression_eq]
        using denotesChild_childDocument ihobject
    · simpa [value?_nodeFields, expressionDocument_eq, normalExpression_eq]
        using denotesChild_childDocument ihproperty
    · simpa [value?_nodeFields] using DenotesFlag.bool computed
  | arrayPattern h l elements ih =>
    rw [toDocument, nodeObject_eq]
    have hentries := denotesEntries_childDocuments ih
    rw [← elementDocuments_eq, ← normalElements_eq] at hentries
    refine .arrayPattern (tagged_nodeFields .arrayPattern) (denotesLocation_nodeFields rfl) ?_
      hentries
    simp [value?_nodeFields]
  | objectPattern h l properties ih =>
    rw [toDocument, nodeObject_eq]
    have hentries := denotesEntries_childDocuments (forall_some_mem_map ih)
    rw [← propertyDocuments_eq, ← normalProperties_eq] at hentries
    refine .objectPattern (tagged_nodeFields .objectPattern) (denotesLocation_nodeFields rfl) ?_
      hentries
    simp [value?_nodeFields]
  | assignmentProperty h l key value shorthand computed ihkey ihvalue =>
    rw [toDocument, nodeObject_eq]
    refine .assignmentProperty (tagged_nodeFields .property) (.inl rfl)
      (denotesLocation_nodeFields rfl) (.inr ?_) ?_ ?_ ?_ ?_ ?_
    · simp [value?_nodeFields]
    · simpa [value?_nodeFields] using DenotesFlag.bool false
    · simpa [value?_nodeFields, expressionDocument_eq, normalExpression_eq]
        using denotesChild_childDocument ihkey
    · simpa [value?_nodeFields, patternDocument_eq, normalPattern_eq]
        using denotesChild_childDocument ihvalue
    · simpa [value?_nodeFields] using DenotesFlag.bool shorthand
    · simpa [value?_nodeFields] using DenotesFlag.bool computed
  | assignmentPattern h l left right ihleft ihright =>
    rw [toDocument, nodeObject_eq]
    refine .assignmentPattern (tagged_nodeFields .assignmentPattern)
      (denotesLocation_nodeFields rfl) ?_ ?_
    · simpa [value?_nodeFields, patternDocument_eq, normalPattern_eq]
        using denotesChild_childDocument ihleft
    · simpa [value?_nodeFields, expressionDocument_eq, normalExpression_eq]
        using denotesChild_childDocument ihright
  | restElement h l argument ih =>
    rw [toDocument, nodeObject_eq]
    refine .restElement (tagged_nodeFields .restElement) (denotesLocation_nodeFields rfl) ?_
    simpa [value?_nodeFields, patternDocument_eq, normalPattern_eq]
      using denotesChild_childDocument ih

end Node

namespace Node

/-- **The round trip.** A tree that is exported and read again comes back in its normal form, and
that agrees with the tree exactly when all its numbers are finite and no location of it got lost. -/
theorem ofDocument_toDocument (settings : Settings) (n : AnyNode) :
    (ofDocument (n.toDocument settings)).outcome = .ok (n.normal settings) ∧
      ((n.normal settings).agrees n = true ↔
        (∀ m ∈ n.nodes, ∀ x, m.value? = some (.number x) → x.isFinite = true) ∧
          (settings.locations = true ∨ ∀ m ∈ n.nodes, m.location = .unset)) := by
  refine ⟨?_, ?_⟩
  · have h := denotes_toDocument settings n
    rw [widen_any] at h
    exact (readExactly _ _ _).mpr h
  · rw [normal_agrees_iff_kept]
    refine ⟨?_, ?_⟩
    · intro h
      refine ⟨fun m hm => (h m hm).2, ?_⟩
      by_cases hl : settings.locations = true
      · exact .inl hl
      · exact .inr fun m hm => (h m hm).1.resolve_left hl
    · rintro ⟨hfinite, hlocation⟩ m hm
      exact ⟨hlocation.imp_right fun h => h m hm, hfinite m hm⟩

end Node

end PatternTree
