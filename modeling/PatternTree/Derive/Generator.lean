import PatternTree.Derive.Block

/-!
# Generators

* `Item.located` gives an item its location. A struct must have a field named `loc`; an enum asks
  the variant at hand.
* `Item.node` gives an item its kind. A struct is of the kind with its own name; an enum asks the
  variant at hand.
* `Item.fromVariant` lets every variant of an enum be made from its field.
* `Item.annotated` puts the attribute in front of an item that asks for these blocks and for the
  usual ones.

An enum takes part only if every variant has exactly one field, by position. What cannot be
generated is refused, and the text of a refusal makes the compiler report it.
-/

namespace PatternTree

/-- Why nothing is generated for an item. -/
inductive Refusal where
  /-- a struct without a field for its location -/
  | noLocationField
  /-- a union cannot have a location -/
  | locatedUnion
  /-- a union cannot be a node -/
  | nodeUnion
  /-- conversions are for enums only -/
  | notAnEnum
  /-- a variant does not have exactly one field by position -/
  | notASingleField
  /-- the attribute takes no arguments -/
  | hasArguments
  deriving DecidableEq

namespace Refusal

/-- The refusal in words. -/
def message : Refusal → String
  | .noLocationField => "#[derive(Located)] requires a `loc: SourceLocation` field"
  | .locatedUnion => "unions cannot be Located"
  | .nodeUnion => "unions cannot be nodes"
  | .notAnEnum => "#[derive(FromVariant)] only supports enums"
  | .notASingleField => "expected a tuple variant with exactly one field"
  | .hasArguments => "#[ast_node] does not accept any arguments"

/-- The code that makes the compiler report the refusal. -/
def code (r : Refusal) : Code :=
  ["::", "core", "::", "compile_error", "!"] ++ Code.braced ["\"" ++ r.message ++ "\""]

end Refusal

namespace Variant

/-- The type of the one field, or the refusal of the variant. -/
def fieldType (v : Variant) : Except Refusal String :=
  match v.shape with
  | .tuple [f] => .ok f.type
  | _ => .error .notASingleField

end Variant

/-- A method body that asks the variant at hand. -/
def forward (path : Code) : List Variant → Except Refusal (List Arm)
  | [] => .ok []
  | v :: rest => do
    let _ ← v.fieldType
    let arms ← forward path rest
    .ok (⟨v.name, path⟩ :: arms)

namespace Shape

/-- There is a field of exactly this name. -/
def hasField (s : Shape) (name : String) : Bool :=
  match s with
  | .named fields => fields.any (·.name == name)
  | _ => false

end Shape

namespace Item

/-! ## Locations -/

/-- The trait of things with a location. -/
def locatedTrait : Code :=
  ["::", "global_common", "::", "Located"]

/-- The type of locations. -/
def locationType : Code :=
  ["::", "global_common", "::", "SourceLocation"]

/-- What reading and changing the location of an item does. -/
def locationBodies (item : Item) : Except Refusal (MethodBody × MethodBody) :=
  match item.data with
  | .struct shape =>
    if shape.hasField "loc" then
      .ok (.expression ["&", "self", ".", "loc"], .expression ["&", "mut", "self", ".", "loc"])
    else
      .error .noLocationField
  | .enum variants => do
    let get ← forward (locatedTrait ++ ["::", "loc"]) variants
    let change ← forward (locatedTrait ++ ["::", "loc_mut"]) variants
    .ok (.forward get, .forward change)
  | .union _ => .error .locatedUnion

/-- The block that gives an item its location. -/
def located (item : Item) : Except Refusal (List Block) := do
  let (get, change) ← item.locationBodies
  .ok [{
    trait := locatedTrait
    header := item.header
    methods := [
      ⟨["loc", "(", "&", "self", ")", "->", "&"] ++ locationType, get⟩,
      ⟨["loc_mut", "(", "&", "mut", "self", ")", "->", "&", "mut"] ++ locationType, change⟩] }]

/-! ## Kinds -/

/-- What asking an item for its kind does. -/
def kindBody (item : Item) : Except Refusal MethodBody :=
  match item.data with
  | .struct _ => .ok (.expression ["crate", "::", "NodeKind", "::", item.name])
  | .enum variants => do
    let arms ← forward ["crate", "::", "Node", "::", "kind"] variants
    .ok (.forward arms)
  | .union _ => .error .nodeUnion

/-- The block that gives an item its kind. -/
def node (item : Item) : Except Refusal (List Block) := do
  let body ← item.kindBody
  .ok [{
    trait := ["crate", "::", "Node"]
    header := item.header
    methods := [⟨["kind", "(", "&", "self", ")", "->", "crate", "::", "NodeKind"], body⟩] }]

/-! ## Conversions -/

/-- The block that makes an enum from the field of a variant. -/
def conversion (item : Item) (variant fieldType : String) : Block where
  trait := ["From", "<", fieldType, ">"]
  header := item.header
  methods := [⟨["from", "(", "v", ":", fieldType, ")", "->", "Self"],
    .expression [item.name, "::", variant, "(", "v", ")"]⟩]

/-- The conversions of the given variants. -/
def conversions (item : Item) : List Variant → Except Refusal (List Block)
  | [] => .ok []
  | v :: rest => do
    let t ← v.fieldType
    let impls ← item.conversions rest
    .ok (item.conversion v.name t :: impls)

/-- The blocks that make an enum from the fields of its variants. -/
def fromVariant (item : Item) : Except Refusal (List Block) :=
  match item.data with
  | .enum variants => item.conversions variants
  | _ => .error .notAnEnum

/-! ## The attribute -/

/-- The traits that the attribute asks for. -/
def deriveList (item : Item) : Code :=
  match item.data with
  | .enum _ =>
    ["::", "ast_node", "::", "Located", ",", "::", "ast_node", "::", "Node", ",",
      "::", "ast_node", "::", "FromVariant", ",", "Clone", ",", "Debug", ",", "PartialEq", ","]
  | _ =>
    ["::", "ast_node", "::", "Located", ",", "::", "ast_node", "::", "Node", ",",
      "Clone", ",", "Debug", ",", "PartialEq"]

/-- The item with the attribute in front of it. The arguments given to the generator must be
blank. -/
def annotated (item : Item) (arguments : String) : Except Refusal Code :=
  if arguments.toList.all Char.isWhitespace then
    .ok (["#", "[", "derive"] ++ Code.parenthesized item.deriveList ++ ["]"] ++ item.code)
  else
    .error .hasArguments

end Item

/-- The code of blocks, or of a refusal. -/
def blocksCode : Except Refusal (List Block) → Code
  | .ok blocks => blocks.flatMap (·.code)
  | .error r => r.code

end PatternTree
