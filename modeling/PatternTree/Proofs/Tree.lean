import PatternTree.Node.Basic

/-!
# Induction over trees, and the nodes of a tree

The trees of the places of a node are its children, whether they stand in a field of their own or in
a list. `Node.treeInduction` puts all of them into one hypothesis for each field, so that a proof
about trees has one case for each kind of node and no cases for optional children and lists of them.

`Node.nodes` lists the nodes of a tree, a parent before its children and these in the order of the
fields.
-/

namespace PatternTree

namespace Node

/-- What holds of a node whenever it holds of its children holds of every tree. -/
theorem treeInduction {motive : (r : Role) → Node r → Prop}
    (identifier : ∀ {r} (h : r.admits .identifier = true) (b : Identifier),
      motive r (.identifier h b))
    (literal : ∀ {r} (h : r.admits .literal = true) (b : Literal), motive r (.literal h b))
    (memberExpression : ∀ {r} (h : r.admits .memberExpression = true) (l : Location)
      (object property : Option Expression) (computed : Bool),
      (∀ n, object = some n → motive _ n) → (∀ n, property = some n → motive _ n) →
        motive r (.memberExpression h ⟨l, object, property, computed⟩))
    (arrayPattern : ∀ {r} (h : r.admits .arrayPattern = true) (l : Location)
      (elements : List (Option Pattern)), (∀ n, some n ∈ elements → motive _ n) →
        motive r (.arrayPattern h ⟨l, elements⟩))
    (objectPattern : ∀ {r} (h : r.admits .objectPattern = true) (l : Location)
      (properties : List PatternProperty), (∀ n, n ∈ properties → motive _ n) →
        motive r (.objectPattern h ⟨l, properties⟩))
    (assignmentProperty : ∀ {r} (h : r.admits .assignmentProperty = true) (l : Location)
      (key : Option Expression) (value : Option Pattern) (shorthand computed : Bool),
      (∀ n, key = some n → motive _ n) → (∀ n, value = some n → motive _ n) →
        motive r (.assignmentProperty h ⟨l, key, value, shorthand, computed⟩))
    (assignmentPattern : ∀ {r} (h : r.admits .assignmentPattern = true) (l : Location)
      (left : Option Pattern) (right : Option Expression),
      (∀ n, left = some n → motive _ n) → (∀ n, right = some n → motive _ n) →
        motive r (.assignmentPattern h ⟨l, left, right⟩))
    (restElement : ∀ {r} (h : r.admits .restElement = true) (l : Location)
      (argument : Option Pattern), (∀ n, argument = some n → motive _ n) →
        motive r (.restElement h ⟨l, argument⟩))
    {r : Role} (n : Node r) : motive r n :=
  @Node.rec motive
    (fun b => (∀ n, b.object = some n → motive _ n) ∧ ∀ n, b.property = some n → motive _ n)
    (fun b => ∀ n, some n ∈ b.elements → motive _ n)
    (fun b => ∀ n, n ∈ b.properties → motive _ n)
    (fun b => (∀ n, b.key = some n → motive _ n) ∧ ∀ n, b.value = some n → motive _ n)
    (fun b => (∀ n, b.left = some n → motive _ n) ∧ ∀ n, b.right = some n → motive _ n)
    (fun b => ∀ n, b.argument = some n → motive _ n)
    (fun o => ∀ n, o = some n → motive _ n)
    (fun es => ∀ n, some n ∈ es → motive _ n)
    (fun ps => ∀ n, n ∈ ps → motive _ n)
    (fun o => ∀ n, o = some n → motive _ n)
    identifier literal
    (fun h b ih => memberExpression h b.location b.object b.property b.computed ih.1 ih.2)
    (fun h b ih => arrayPattern h b.location b.elements ih)
    (fun h b ih => objectPattern h b.location b.properties ih)
    (fun h b ih =>
      assignmentProperty h b.location b.key b.value b.shorthand b.computed ih.1 ih.2)
    (fun h b ih => assignmentPattern h b.location b.left b.right ih.1 ih.2)
    (fun h b ih => restElement h b.location b.argument ih)
    (fun _ _ _ _ ihobject ihproperty => ⟨ihobject, ihproperty⟩)
    (fun _ _ ih => ih)
    (fun _ _ ih => ih)
    (fun _ _ _ _ _ ihkey ihvalue => ⟨ihkey, ihvalue⟩)
    (fun _ _ _ ihleft ihright => ⟨ihleft, ihright⟩)
    (fun _ _ ih => ih)
    (fun _ h => nomatch h)
    (fun _ ih _ h => Option.some.inj h ▸ ih)
    (fun _ h => nomatch h)
    (fun _ _ ihfirst ihrest n h => (List.mem_cons.mp h).elim (fun h => ihfirst n h.symm) (ihrest n))
    (fun _ h => nomatch h)
    (fun _ _ ihfirst ihrest n h => (List.mem_cons.mp h).elim (fun h => h ▸ ihfirst) (ihrest n))
    (fun _ h => nomatch h)
    (fun _ ih _ h => Option.some.inj h ▸ ih)
    r n

/-! ## The nodes of a tree -/

mutual

/-- The nodes of a tree, parents first. -/
def nodes : {r : Role} → Node r → List AnyNode
  | _, .identifier h b => [widen (.identifier h b)]
  | _, .literal h b => [widen (.literal h b)]
  | _, .memberExpression h ⟨l, object, property, computed⟩ =>
    widen (.memberExpression h ⟨l, object, property, computed⟩) ::
      (expressionNodes object ++ expressionNodes property)
  | _, .arrayPattern h ⟨l, elements⟩ =>
    widen (.arrayPattern h ⟨l, elements⟩) :: elementNodes elements
  | _, .objectPattern h ⟨l, properties⟩ =>
    widen (.objectPattern h ⟨l, properties⟩) :: propertyNodes properties
  | _, .assignmentProperty h ⟨l, key, value, shorthand, computed⟩ =>
    widen (.assignmentProperty h ⟨l, key, value, shorthand, computed⟩) ::
      (expressionNodes key ++ patternNodes value)
  | _, .assignmentPattern h ⟨l, left, right⟩ =>
    widen (.assignmentPattern h ⟨l, left, right⟩) :: (patternNodes left ++ expressionNodes right)
  | _, .restElement h ⟨l, argument⟩ =>
    widen (.restElement h ⟨l, argument⟩) :: patternNodes argument
termination_by structural _ n => n

/-- The nodes of an optional expression. -/
def expressionNodes : Option Expression → List AnyNode
  | none => []
  | some n => n.nodes
termination_by structural n => n

/-- The nodes of an optional pattern. -/
def patternNodes : Option Pattern → List AnyNode
  | none => []
  | some n => n.nodes
termination_by structural n => n

/-- The nodes of the elements of an array pattern. -/
def elementNodes : List (Option Pattern) → List AnyNode
  | [] => []
  | n :: rest => patternNodes n ++ elementNodes rest
termination_by structural n => n

/-- The nodes of the entries of an object pattern. -/
def propertyNodes : List PatternProperty → List AnyNode
  | [] => []
  | n :: rest => n.nodes ++ propertyNodes rest
termination_by structural n => n

end

/-! ## Children of any role

A function on trees has one companion for each role that a child can have. Beside each of them
stands its form for children of any role, so that what is proved of a child is proved once. -/

/-- The nodes of an optional child. -/
def childNodes {r : Role} : Option (Node r) → List AnyNode
  | none => []
  | some n => n.nodes

theorem expressionNodes_eq (n : Option Expression) : expressionNodes n = childNodes n := by
  cases n <;> rfl

theorem patternNodes_eq (n : Option Pattern) : patternNodes n = childNodes n := by
  cases n <;> rfl

theorem elementNodes_eq (ns : List (Option Pattern)) :
    elementNodes ns = ns.flatMap childNodes := by
  induction ns with
  | nil => rfl
  | cons n rest ih => rw [elementNodes, List.flatMap_cons, patternNodes_eq, ih]

theorem propertyNodes_eq (ns : List PatternProperty) :
    propertyNodes ns = (ns.map some).flatMap childNodes := by
  induction ns with
  | nil => rfl
  | cons n rest ih => rw [propertyNodes, List.map_cons, List.flatMap_cons, childNodes, ih]

/-- What holds of the entries of a list holds of them as children. -/
theorem forall_some_mem_map {r : Role} {ns : List (Node r)} {p : Node r → Prop}
    (h : ∀ n, n ∈ ns → p n) (n : Node r) (hn : some n ∈ ns.map some) : p n :=
  h n (by simpa using hn)

end Node

end PatternTree
