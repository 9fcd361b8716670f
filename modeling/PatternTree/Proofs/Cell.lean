import PatternTree.Node.Edit

/-!
# The cells of a node

A node of a kind is made of **cells**, each of which a write replaces as a whole: the two ends of
its location, its name, its flags, its children and its list of children. The value and the text of
a literal are cells too, though nothing overwrites them.

A node is what its cells hold (`Cell.ext`), and the setters of a node change the cell they are for
and no other.
-/

namespace PatternTree

/-- Something that a node of a kind holds. -/
inductive Cell : Kind → Type where
  /-- an end of the location -/
  | location {k : Kind} (e : End) : Cell k
  /-- the name of an identifier -/
  | name : Cell .identifier
  /-- the value of a literal -/
  | value : Cell .literal
  /-- the text of a literal -/
  | raw : Cell .literal
  /-- a flag -/
  | flag {k : Kind} (f : Flag k) : Cell k
  /-- a child -/
  | child {k : Kind} {c : Capability} (s : Slot k c) : Cell k
  /-- the elements of an array pattern -/
  | elements : Cell .arrayPattern
  /-- the entries of an object pattern -/
  | properties : Cell .objectPattern
  deriving DecidableEq

namespace Cell

/-- What the cell can hold. -/
def Content : {k : Kind} → Cell k → Type
  | _, .location _ => Option Position
  | _, .name => String
  | _, .value => LiteralValue
  | _, .raw => String
  | _, .flag _ => Bool
  | _, .child (c := c) _ => Option (Node (.only c))
  | _, .elements => List (Option Pattern)
  | _, .properties => List PatternProperty

/-- What the cell holds. -/
def get : {k : Kind} → (a : Cell k) → Body k → a.Content
  | _, .location e, b => (Body.location b).read e
  | _, .name, b => Identifier.name b
  | _, .value, b => Literal.value b
  | _, .raw, b => Literal.raw b
  | _, .flag f, b => f.get b
  | _, .child s, b => s.get b
  | _, .elements, b => ArrayPattern.elements b
  | _, .properties, b => ObjectPattern.properties b

variable {k : Kind}

/-- Nodes of a kind that hold the same in every cell are equal. -/
theorem ext {b b' : Body k} (h : ∀ a : Cell k, a.get b = a.get b') : b = b' := by
  have hlocation : Body.location b = Body.location b' := by
    have hstart : (Body.location b).start = (Body.location b').start := h (.location .start)
    have hstop : (Body.location b).stop = (Body.location b').stop := h (.location .stop)
    calc Body.location b = ⟨(Body.location b).start, (Body.location b).stop⟩ := rfl
      _ = Body.location b' := by rw [hstart, hstop]
  cases k with
  | identifier =>
    obtain ⟨l, name⟩ := b
    obtain rfl : l = _ := hlocation
    obtain rfl : name = _ := h .name
    rfl
  | literal =>
    obtain ⟨l, value, raw⟩ := b
    obtain rfl : l = _ := hlocation
    obtain rfl : value = _ := h .value
    obtain rfl : raw = _ := h .raw
    rfl
  | memberExpression =>
    obtain ⟨l, object, property, computed⟩ := b
    obtain rfl : l = _ := hlocation
    obtain rfl : object = _ := h (.child .object)
    obtain rfl : property = _ := h (.child .property)
    obtain rfl : computed = _ := h (.flag .accessComputed)
    rfl
  | arrayPattern =>
    obtain ⟨l, elements⟩ := b
    obtain rfl : l = _ := hlocation
    obtain rfl : elements = _ := h .elements
    rfl
  | objectPattern =>
    obtain ⟨l, properties⟩ := b
    obtain rfl : l = _ := hlocation
    obtain rfl : properties = _ := h .properties
    rfl
  | assignmentProperty =>
    obtain ⟨l, key, value, shorthand, computed⟩ := b
    obtain rfl : l = _ := hlocation
    obtain rfl : key = _ := h (.child .key)
    obtain rfl : value = _ := h (.child .value)
    obtain rfl : shorthand = _ := h (.flag .shorthand)
    obtain rfl : computed = _ := h (.flag .keyComputed)
    rfl
  | assignmentPattern =>
    obtain ⟨l, left, right⟩ := b
    obtain rfl : l = _ := hlocation
    obtain rfl : left = _ := h (.child .left)
    obtain rfl : right = _ := h (.child .right)
    rfl
  | restElement =>
    obtain ⟨l, argument⟩ := b
    obtain rfl : l = _ := hlocation
    obtain rfl : argument = _ := h (.child .argument)
    rfl

/-! ## What the setters do to the cells -/

theorem get_relocate_self (b : Body k) (e : End) (p : Position) :
    (Cell.location e).get (b.relocate ((Body.location b).write e p)) = some p := by
  change (Body.location (b.relocate _)).read e = _
  rw [Body.location_relocate, Location.read_write_self]

theorem get_relocate_of_ne {a : Cell k} {e : End} (h : a ≠ .location e) (b : Body k)
    (p : Position) : a.get (b.relocate ((Body.location b).write e p)) = a.get b := by
  cases a with
  | location f =>
    have hne : e ≠ f := by
      rintro rfl
      exact h rfl
    change (Body.location (b.relocate _)).read f = _
    rw [Body.location_relocate, Location.read_write_of_ne _ hne]
    rfl
  | name => rfl
  | value => rfl
  | raw => rfl
  | flag f => cases f <;> rfl
  | child s => cases s <;> rfl
  | elements => rfl
  | properties => rfl

theorem get_flag_self (f : Flag k) (b : Body k) (v : Bool) : (Cell.flag f).get (f.set b v) = v := by
  cases f <;> rfl

theorem get_flag_of_ne {a : Cell k} {f : Flag k} (h : a ≠ .flag f) (b : Body k) (v : Bool) :
    a.get (f.set b v) = a.get b := by
  cases f <;> cases a with
  | location e => rfl
  | flag g => cases g <;> trivial
  | child s => cases s <;> rfl

theorem get_child_self {c : Capability} (s : Slot k c) (b : Body k) (n : Node (.only c)) :
    (Cell.child s).get (s.set b n) = some n :=
  s.get_set_self b n

theorem get_child_of_ne {c : Capability} {a : Cell k} {s : Slot k c} (h : a ≠ .child s) (b : Body k)
    (n : Node (.only c)) : a.get (s.set b n) = a.get b := by
  cases s <;> cases a with
  | location e => rfl
  | flag f => cases f <;> rfl
  | child t => cases t <;> trivial

theorem get_name_of_ne {a : Cell .identifier} (h : a ≠ .name) (b : Identifier) (s : String) :
    a.get ({ b with name := s } : Identifier) = a.get b := by
  cases a with
  | location e => rfl
  | name => exact absurd rfl h
  | flag f => cases f
  | child s => cases s

theorem get_elements_of_ne {a : Cell .arrayPattern} (h : a ≠ .elements) (b : ArrayPattern Pattern)
    (ns : List (Option Pattern)) :
    a.get ({ b with elements := ns } : ArrayPattern Pattern) = a.get b := by
  cases a with
  | location e => rfl
  | elements => exact absurd rfl h
  | flag f => cases f
  | child s => cases s

theorem get_properties_of_ne {a : Cell .objectPattern} (h : a ≠ .properties)
    (b : ObjectPattern PatternProperty) (ns : List PatternProperty) :
    a.get ({ b with properties := ns } : ObjectPattern PatternProperty) = a.get b := by
  cases a with
  | location e => rfl
  | properties => exact absurd rfl h
  | flag f => cases f
  | child s => cases s

end Cell

end PatternTree
