import PatternTree.Derive.Item

/-!
# Implementation blocks

The code that is generated for an item: a block that implements a trait, with its methods. A method
either evaluates an expression or **forwards** to the variant at hand, with one arm for each
variant.
-/

namespace PatternTree

/-- An arm that hands the field of a variant to a function. -/
structure Arm where
  /-- the variant -/
  variant : String
  /-- the path of the function -/
  path : Code
  deriving DecidableEq

namespace Arm

/-- The text of an arm. -/
def code (a : Arm) : Code :=
  ["Self", "::", a.variant, "(", "field", ")", "=>"] ++ a.path ++ ["(", "field", ")", ","]

end Arm

/-- What a method does. -/
inductive MethodBody where
  /-- it evaluates an expression -/
  | expression (code : Code)
  /-- it forwards to the variant at hand -/
  | forward (arms : List Arm)
  deriving DecidableEq

namespace MethodBody

/-- The text of what a method does. -/
def code : MethodBody → Code
  | .expression c => c
  | .forward arms => "match" :: "self" :: Code.braced (arms.flatMap (·.code))

end MethodBody

/-- A method of a block. -/
structure Method where
  /-- name, parameters and result -/
  signature : Code
  /-- what it does -/
  body : MethodBody
  deriving DecidableEq

namespace Method

/-- The text of a method. -/
def code (m : Method) : Code :=
  "fn" :: m.signature ++ Code.braced m.body.code

end Method

/-- What an implementation block says about the type it is for. -/
structure Header where
  /-- the parameters, with bounds and without defaults -/
  params : List Code
  /-- the name of the type -/
  name : String
  /-- the names of the parameters -/
  arguments : List String
  /-- the where clause -/
  clause : Code
  deriving DecidableEq

namespace Item

/-- The header of every block for an item. -/
def header (item : Item) : Header where
  params := item.params.map (·.bare)
  name := item.name
  arguments := item.params.map (·.name)
  clause := item.whereCode

end Item

/-- A block that implements a trait. -/
structure Block where
  /-- the trait -/
  trait : Code
  /-- the type it is implemented for -/
  header : Header
  /-- the methods -/
  methods : List Method
  deriving DecidableEq

namespace Block

/-- The text of a block. -/
def code (b : Block) : Code :=
  ["#", "[", "automatically_derived", "]", "impl"] ++
    Code.angled (Code.commaSeparated b.header.params) ++ b.trait ++ ["for", b.header.name] ++
    Code.angled (Code.commaSeparated (b.header.arguments.map ([·]))) ++ b.header.clause ++
    Code.braced (b.methods.flatMap (·.code))

end Block

end PatternTree
