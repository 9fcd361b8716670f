import PatternTree.Proofs.Checks
import PatternTree.Proofs.Occurrence

/-!
# What a document denotes

The grammar of the documents that are read as trees, as a relation between documents and trees that
does not mention the reader.

* The leaves first: a location, a literal value and a flag, each out of the value that its key looks
  up. `DenotesLocation` takes the numbers of a position as they stand, so none of them is cut.
* `Denotes` has one rule for each kind of node. A child that is missing or null is unset, an element
  that is null is skipped, and an entry of an object pattern is never null. A child is a tree of the
  type of its place, so the rules need not say which kinds a place admits.
-/

namespace PatternTree

/-! ## Leaves -/

/-- An optional value denotes an optional position. -/
inductive DenotesPosition : Option Document → Option Position → Prop where
  /-- a missing position is unset -/
  | missing : DenotesPosition none none
  /-- a null position is unset -/
  | null : DenotesPosition (some .null) none
  /-- the three numbers of an object, each an integer -/
  | object {fields : Fields} {p : Position}
      (line : Fields.value? "line" fields = some (.number (.integer p.line.toNat)))
      (column : Fields.value? "column" fields = some (.number (.integer p.column.toNat)))
      (offset : Fields.value? "offset" fields = some (.number (.integer p.offset.toNat))) :
      DenotesPosition (some (.object fields)) (some p)

/-- An optional value denotes a location. -/
inductive DenotesLocation : Option Document → Location → Prop where
  /-- a missing location is unset -/
  | missing : DenotesLocation none .unset
  /-- a null location is unset -/
  | null : DenotesLocation (some .null) .unset
  /-- the two ends of an object -/
  | object {ends : Fields} {l : Location}
      (start : DenotesPosition (Fields.value? "start" ends) l.start)
      (stop : DenotesPosition (Fields.value? "end" ends) l.stop) :
      DenotesLocation (some (.object ends)) l

/-- A value denotes a literal value. -/
inductive DenotesValue : Document → LiteralValue → Prop where
  /-- the null value -/
  | null : DenotesValue .null .null
  /-- a truth value -/
  | bool (b : Bool) : DenotesValue (.bool b) (.bool b)
  /-- a number -/
  | number (n : Numeral) : DenotesValue (.number n) (.number n.toNumber)
  /-- a text -/
  | string (s : String) : DenotesValue (.string s) (.string s)

/-- An optional value denotes a flag. -/
inductive DenotesFlag : Option Document → Bool → Prop where
  /-- a missing flag is false -/
  | missing : DenotesFlag none false
  /-- a truth value -/
  | bool (b : Bool) : DenotesFlag (some (.bool b)) b

/-! ## Trees -/

mutual

/-- A document denotes a tree. -/
inductive Denotes : Document → AnyNode → Prop where
  /-- a name -/
  | identifier {fields : Fields} {l : Location} {name : String}
      (tagged : Tagged fields .identifier)
      (location : DenotesLocation (Fields.value? "location" fields) l)
      (named : Fields.value? "name" fields = some (.string name)) :
      Denotes (.object fields) (.identifier rfl ⟨l, name⟩)
  /-- a literal; its value must be there, even if it is null -/
  | literal {fields : Fields} {l : Location} {d : Document} {value : LiteralValue} {raw : String}
      (tagged : Tagged fields .literal)
      (location : DenotesLocation (Fields.value? "location" fields) l)
      (present : Fields.value? "value" fields = some d) (valued : DenotesValue d value)
      (written : Fields.value? "raw" fields = some (.string raw)) :
      Denotes (.object fields) (.literal rfl ⟨l, value, raw⟩)
  /-- a property access -/
  | memberExpression {fields : Fields} {l : Location} {object property : Option Expression}
      {computed : Bool} (tagged : Tagged fields .memberExpression)
      (location : DenotesLocation (Fields.value? "location" fields) l)
      (accessed : DenotesChild (Fields.value? "object" fields) object)
      (accessor : DenotesChild (Fields.value? "property" fields) property)
      (flag : DenotesFlag (Fields.value? "computed" fields) computed) :
      Denotes (.object fields) (.memberExpression rfl ⟨l, object, property, computed⟩)
  /-- an array pattern, some of its elements skipped -/
  | arrayPattern {fields : Fields} {l : Location} {ds : List Document}
      {elements : List (Option Pattern)} (tagged : Tagged fields .arrayPattern)
      (location : DenotesLocation (Fields.value? "location" fields) l)
      (listed : Fields.value? "elements" fields = some (.array ds))
      (each : DenotesEntries ds elements) :
      Denotes (.object fields) (.arrayPattern rfl ⟨l, elements⟩)
  /-- an object pattern, none of its entries absent -/
  | objectPattern {fields : Fields} {l : Location} {ds : List Document}
      {properties : List PatternProperty} (tagged : Tagged fields .objectPattern)
      (location : DenotesLocation (Fields.value? "location" fields) l)
      (listed : Fields.value? "properties" fields = some (.array ds))
      (each : DenotesEntries ds (properties.map some)) :
      Denotes (.object fields) (.objectPattern rfl ⟨l, properties⟩)
  /-- an entry of an object pattern, under either of its tags; neither an accessor nor a method -/
  | assignmentProperty {fields : Fields} {l : Location} {t : Tag} {key : Option Expression}
      {value : Option Pattern} {shorthand computed : Bool} (tagged : Tagged fields t)
      (entry : t = .property ∨ t = .assignmentProperty)
      (location : DenotesLocation (Fields.value? "location" fields) l)
      (init : Fields.value? "kind" fields = none ∨
        Fields.value? "kind" fields = some (.string "init"))
      (method : DenotesFlag (Fields.value? "method" fields) false)
      (keyed : DenotesChild (Fields.value? "key" fields) key)
      (valued : DenotesChild (Fields.value? "value" fields) value)
      (short : DenotesFlag (Fields.value? "shorthand" fields) shorthand)
      (flag : DenotesFlag (Fields.value? "computed" fields) computed) :
      Denotes (.object fields) (.assignmentProperty rfl ⟨l, key, value, shorthand, computed⟩)
  /-- a pattern with a default -/
  | assignmentPattern {fields : Fields} {l : Location} {left : Option Pattern}
      {right : Option Expression} (tagged : Tagged fields .assignmentPattern)
      (location : DenotesLocation (Fields.value? "location" fields) l)
      (pattern : DenotesChild (Fields.value? "left" fields) left)
      (default : DenotesChild (Fields.value? "right" fields) right) :
      Denotes (.object fields) (.assignmentPattern rfl ⟨l, left, right⟩)
  /-- a rest pattern -/
  | restElement {fields : Fields} {l : Location} {argument : Option Pattern}
      (tagged : Tagged fields .restElement)
      (location : DenotesLocation (Fields.value? "location" fields) l)
      (rest : DenotesChild (Fields.value? "argument" fields) argument) :
      Denotes (.object fields) (.restElement rfl ⟨l, argument⟩)

/-- An optional value denotes an optional child of a place. -/
inductive DenotesChild : {c : Capability} → Option Document → Option (Node (.only c)) → Prop where
  /-- a missing child is unset -/
  | missing {c : Capability} : DenotesChild (c := c) none none
  /-- a null child is unset -/
  | null {c : Capability} : DenotesChild (c := c) (some .null) none
  /-- a tree that the place admits -/
  | present {c : Capability} {d : Document} {n : Node (.only c)} (tree : Denotes d n.widen) :
      DenotesChild (some d) (some n)

/-- A list of values denotes a list of optional children, in order. -/
inductive DenotesEntries :
    {c : Capability} → List Document → List (Option (Node (.only c))) → Prop where
  /-- no entries -/
  | nil {c : Capability} : DenotesEntries (c := c) [] []
  /-- an entry that is absent or a tree, and the rest -/
  | cons {c : Capability} {d : Document} {n : Option (Node (.only c))} {ds : List Document}
      {ns : List (Option (Node (.only c)))}
      (first : DenotesChild (some d) n) (rest : DenotesEntries ds ns) :
      DenotesEntries (d :: ds) (n :: ns)

end

end PatternTree
