import PatternTree.Proofs.Tree
import PatternTree.Node.Agreement
import PatternTree.Settings.Basic

/-!
# What is kept of a tree

A document does not hold everything that a tree does. The **normal form** of a tree under the
settings of an export is what is left of it, and changes nothing else:

* a literal number that is not finite has no document, and becomes null;
* the negative zero becomes the positive one;
* without locations in the document every location becomes unset.

A node is `Kept` when nothing of it gets lost, and a tree agrees with its normal form exactly when
all its nodes are kept (`Node.normal_agrees_iff_kept`).
-/

namespace PatternTree

/-! ## Normal forms -/

namespace Location

/-- The location as it comes back. -/
def normal (settings : Settings) (l : Location) : Location :=
  if settings.locations then l else .unset

end Location

namespace LiteralValue

/-- The value as it comes back. -/
def normal : LiteralValue → LiteralValue
  | .number .nan => .null
  | .number (.infinite _) => .null
  | .number (.finite negative m) =>
    if m = .zero then .number .zero else .number (.finite negative m)
  | v => v

end LiteralValue

namespace Node

mutual

/-- The tree as it comes back. -/
def normal (settings : Settings) : {r : Role} → Node r → Node r
  | _, .identifier h ⟨l, name⟩ => .identifier h ⟨l.normal settings, name⟩
  | _, .literal h ⟨l, value, raw⟩ => .literal h ⟨l.normal settings, value.normal, raw⟩
  | _, .memberExpression h ⟨l, object, property, computed⟩ =>
    .memberExpression h ⟨l.normal settings, normalExpression settings object,
      normalExpression settings property, computed⟩
  | _, .arrayPattern h ⟨l, elements⟩ =>
    .arrayPattern h ⟨l.normal settings, normalElements settings elements⟩
  | _, .objectPattern h ⟨l, properties⟩ =>
    .objectPattern h ⟨l.normal settings, normalProperties settings properties⟩
  | _, .assignmentProperty h ⟨l, key, value, shorthand, computed⟩ =>
    .assignmentProperty h ⟨l.normal settings, normalExpression settings key,
      normalPattern settings value, shorthand, computed⟩
  | _, .assignmentPattern h ⟨l, left, right⟩ =>
    .assignmentPattern h ⟨l.normal settings, normalPattern settings left,
      normalExpression settings right⟩
  | _, .restElement h ⟨l, argument⟩ =>
    .restElement h ⟨l.normal settings, normalPattern settings argument⟩
termination_by structural _ n => n

/-- `normal` on an optional expression. -/
def normalExpression (settings : Settings) : Option Expression → Option Expression
  | none => none
  | some n => some (n.normal settings)
termination_by structural n => n

/-- `normal` on an optional pattern. -/
def normalPattern (settings : Settings) : Option Pattern → Option Pattern
  | none => none
  | some n => some (n.normal settings)
termination_by structural n => n

/-- `normal` on the elements of an array pattern. -/
def normalElements (settings : Settings) : List (Option Pattern) → List (Option Pattern)
  | [] => []
  | n :: rest => normalPattern settings n :: normalElements settings rest
termination_by structural n => n

/-- `normal` on the entries of an object pattern. -/
def normalProperties (settings : Settings) : List PatternProperty → List PatternProperty
  | [] => []
  | n :: rest => n.normal settings :: normalProperties settings rest
termination_by structural n => n

end

theorem normalExpression_eq (settings : Settings) (n : Option Expression) :
    normalExpression settings n = n.map (normal settings) := by
  cases n <;> rfl

theorem normalPattern_eq (settings : Settings) (n : Option Pattern) :
    normalPattern settings n = n.map (normal settings) := by
  cases n <;> rfl

theorem normalElements_eq (settings : Settings) (ns : List (Option Pattern)) :
    normalElements settings ns = ns.map (Option.map (normal settings)) := by
  induction ns with
  | nil => rfl
  | cons n rest ih => rw [normalElements, List.map_cons, normalPattern_eq, ih]

theorem normalProperties_eq (settings : Settings) (ns : List PatternProperty) :
    (normalProperties settings ns).map some =
      (ns.map some).map (Option.map (normal settings)) := by
  induction ns with
  | nil => rfl
  | cons n rest ih => rw [normalProperties, List.map_cons, ih]; rfl

end Node

/-! ## Agreement -/

namespace Location

theorem normal_eq_self_iff {settings : Settings} {l : Location} :
    l.normal settings = l ↔ settings.locations = true ∨ l = .unset := by
  rw [normal]
  split
  · next h => simp [h]
  · next h => simp [h, eq_comm]

end Location

namespace LiteralValue

/-- A value agrees with its normal form unless it is a number that is not finite. -/
theorem normal_agrees_iff {v : LiteralValue} :
    v.normal.agrees v = true ↔ ∀ x, v = .number x → x.isFinite = true := by
  cases v with
  | null => simp [normal, agrees]
  | bool b => simp [normal, agrees]
  | string s => simp [normal, agrees]
  | number x =>
    cases x with
    | nan => simp [normal, agrees, Number.isFinite]
    | infinite negative => simp [normal, agrees, Number.isFinite]
    | finite negative m =>
      by_cases h : m = .zero
      · simp [normal, h, agrees, Number.agrees, Number.zero, Number.isFinite, Magnitude.zero]
      · simp [normal, h, agrees, Number.agrees, Number.isFinite]

end LiteralValue

namespace Node

variable {settings : Settings}

/-- Agreement of optional children. -/
def agreesChild {r : Role} : Option (Node r) → Option (Node r) → Bool
  | none, none => true
  | some m, some n => m.agrees n
  | _, _ => false

/-- Agreement of children in a list, one by one. -/
def agreesEntries {r : Role} : List (Option (Node r)) → List (Option (Node r)) → Bool
  | [], [] => true
  | m :: ms, n :: ns => agreesChild m n && agreesEntries ms ns
  | _, _ => false

theorem agreesExpression_eq (m n : Option Expression) :
    agreesExpression m n = agreesChild m n := by
  cases m <;> cases n <;> rfl

theorem agreesPattern_eq (m n : Option Pattern) : agreesPattern m n = agreesChild m n := by
  cases m <;> cases n <;> rfl

theorem agreesElements_eq (ms ns : List (Option Pattern)) :
    agreesElements ms ns = agreesEntries ms ns := by
  induction ms generalizing ns with
  | nil => cases ns <;> rfl
  | cons m ms ih =>
    cases ns with
    | nil => rfl
    | cons n ns => rw [agreesElements, agreesEntries, agreesPattern_eq, ih]

theorem agreesProperties_eq (ms ns : List PatternProperty) :
    agreesProperties ms ns = agreesEntries (ms.map some) (ns.map some) := by
  induction ms generalizing ns with
  | nil => cases ns <;> rfl
  | cons m ms ih =>
    cases ns with
    | nil => rfl
    | cons n ns => rw [agreesProperties, List.map_cons, List.map_cons, agreesEntries, ih]; rfl

/-- The value at the root, if that is a literal. -/
def value? {r : Role} : Node r → Option LiteralValue
  | .literal _ b => some b.value
  | _ => none

/-- Nothing of the node itself is lost on the way. -/
def Kept (settings : Settings) (m : AnyNode) : Prop :=
  (settings.locations = true ∨ m.location = .unset) ∧
    ∀ x, m.value? = some (.number x) → x.isFinite = true

theorem agreesChild_normal_iff {r : Role} {n : Option (Node r)}
    (ih : ∀ m, n = some m →
      ((m.normal settings).agrees m = true ↔ ∀ k ∈ m.nodes, Kept settings k)) :
    agreesChild (n.map (normal settings)) n = true ↔ ∀ k ∈ childNodes n, Kept settings k := by
  cases n with
  | none => simp [agreesChild, childNodes]
  | some m => exact ih m rfl

theorem agreesEntries_normal_iff {r : Role} {ns : List (Option (Node r))}
    (ih : ∀ m, some m ∈ ns →
      ((m.normal settings).agrees m = true ↔ ∀ k ∈ m.nodes, Kept settings k)) :
    agreesEntries (ns.map (Option.map (normal settings))) ns = true ↔
      ∀ k ∈ ns.flatMap childNodes, Kept settings k := by
  induction ns with
  | nil => simp [agreesEntries]
  | cons n rest ihrest =>
    rw [List.map_cons, agreesEntries, List.flatMap_cons, Bool.and_eq_true, List.forall_mem_append,
      agreesChild_normal_iff fun m hm => ih m (hm ▸ List.mem_cons_self),
      ihrest fun m hm => ih m (List.mem_cons_of_mem _ hm)]

theorem kept_iff_of_value?_eq_none {m : AnyNode} {l : Location} (hl : m.location = l)
    (hv : m.value? = none) : Kept settings m ↔ l.normal settings = l := by
  rw [Location.normal_eq_self_iff, Kept, hl, hv]
  simp

theorem normal_agrees_iff_kept (settings : Settings) {r : Role} (n : Node r) :
    (n.normal settings).agrees n = true ↔ ∀ m ∈ n.nodes, Kept settings m := by
  -- names and flags are not touched, so only the location of each node is compared, and its value
  induction n using treeInduction with
  | identifier h b =>
    rw [normal, agrees, nodes, List.forall_mem_singleton, kept_iff_of_value?_eq_none rfl rfl,
      beq_iff_eq, Identifier.mk.injEq, and_iff_left rfl]
    rfl
  | literal h b =>
    have hvalue : (widen (.literal h b)).value? = some b.value := rfl
    rw [normal, agrees, nodes, List.forall_mem_singleton, Literal.agrees, Bool.and_eq_true,
      Bool.and_eq_true, beq_iff_eq, beq_iff_eq, and_iff_left rfl, LiteralValue.normal_agrees_iff,
      Location.normal_eq_self_iff, Kept]
    simp only [hvalue, Option.some.injEq]
    rfl
  | memberExpression h l object property computed ihobject ihproperty =>
    rw [normal, agrees, nodes, List.forall_mem_cons, List.forall_mem_append,
      kept_iff_of_value?_eq_none rfl rfl]
    simp only [normalExpression_eq, agreesExpression_eq, expressionNodes_eq, Bool.and_eq_true,
      beq_iff_eq, agreesChild_normal_iff ihobject, agreesChild_normal_iff ihproperty, and_true,
      and_assoc]
    rfl
  | arrayPattern h l elements ih =>
    rw [normal, agrees, nodes, List.forall_mem_cons, kept_iff_of_value?_eq_none rfl rfl]
    simp only [normalElements_eq, agreesElements_eq, elementNodes_eq, Bool.and_eq_true, beq_iff_eq,
      agreesEntries_normal_iff ih]
    rfl
  | objectPattern h l properties ih =>
    rw [normal, agrees, nodes, List.forall_mem_cons, kept_iff_of_value?_eq_none rfl rfl]
    simp only [agreesProperties_eq, normalProperties_eq, propertyNodes_eq, Bool.and_eq_true,
      beq_iff_eq, agreesEntries_normal_iff (forall_some_mem_map ih)]
    rfl
  | assignmentProperty h l key value shorthand computed ihkey ihvalue =>
    rw [normal, agrees, nodes, List.forall_mem_cons, List.forall_mem_append,
      kept_iff_of_value?_eq_none rfl rfl]
    simp only [normalExpression_eq, normalPattern_eq, agreesExpression_eq, agreesPattern_eq,
      expressionNodes_eq, patternNodes_eq, Bool.and_eq_true, beq_iff_eq,
      agreesChild_normal_iff ihkey, agreesChild_normal_iff ihvalue, and_true, and_assoc]
    rfl
  | assignmentPattern h l left right ihleft ihright =>
    rw [normal, agrees, nodes, List.forall_mem_cons, List.forall_mem_append,
      kept_iff_of_value?_eq_none rfl rfl]
    simp only [normalExpression_eq, normalPattern_eq, agreesExpression_eq, agreesPattern_eq,
      expressionNodes_eq, patternNodes_eq, Bool.and_eq_true, beq_iff_eq,
      agreesChild_normal_iff ihleft, agreesChild_normal_iff ihright, and_assoc]
    rfl
  | restElement h l argument ih =>
    rw [normal, agrees, nodes, List.forall_mem_cons, kept_iff_of_value?_eq_none rfl rfl]
    simp only [normalPattern_eq, agreesPattern_eq, patternNodes_eq, Bool.and_eq_true, beq_iff_eq,
      agreesChild_normal_iff ih]
    rfl

end Node

end PatternTree
