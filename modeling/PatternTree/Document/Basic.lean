import PatternTree.Number.Rounding

/-!
# Documents

A document is a JSON value.

* Numbers keep the form in which they are written: an integer is not a real with the same value, so
  `1` and `1.0` are different documents.
* Objects are lists of fields. `Fields.value?` looks a key up, the first field of that name
  counting.
* `Document.canonical` puts the fields of every object in ascending order of their keys, and of
  several fields with one key keeps the last.
-/

namespace PatternTree

/-- A number as it stands in a document. -/
inductive Numeral where
  /-- an integer -/
  | integer (value : Int)
  /-- a finite double -/
  | real (negative : Bool) (magnitude : Magnitude)
  deriving DecidableEq

namespace Numeral

/-- The double a numeral stands for: the nearest one to an integer. -/
def toNumber : Numeral → Number
  | .integer n => Number.ofInt n
  | .real negative m => .finite negative m

end Numeral

/-- A JSON value. -/
inductive Document where
  /-- the null value -/
  | null
  /-- a truth value -/
  | bool (value : Bool)
  /-- a number -/
  | number (value : Numeral)
  /-- a text -/
  | string (value : String)
  /-- a list of entries -/
  | array (entries : List Document)
  /-- a list of named fields -/
  | object (fields : List (String × Document))

/-- The fields of an object. -/
abbrev Fields := List (String × Document)

namespace Fields

/-- The value of the first field with the given name. -/
def value? (name : String) : Fields → Option Document
  | [] => none
  | (key, v) :: rest => if key = name then some v else value? name rest

@[simp] theorem value?_nil (name : String) : value? name [] = none := rfl

@[simp] theorem value?_cons (name key : String) (v : Document) (rest : Fields) :
    value? name ((key, v) :: rest) = if key = name then some v else value? name rest := rfl

/-- A field of the first list hides those of the second. -/
theorem value?_append (name : String) (fields more : Fields) :
    value? name (fields ++ more) = (value? name fields).or (value? name more) := by
  induction fields with
  | nil => rfl
  | cons f rest ih =>
    obtain ⟨key, v⟩ := f
    rw [List.cons_append, value?_cons, value?_cons]
    by_cases h : key = name
    · rw [if_pos h, if_pos h]
      rfl
    · rw [if_neg h, if_neg h]
      exact ih

/-- Puts a field in its place in ascending order of keys, unless the key is there already. -/
def insertNew (key : String) (v : Document) : Fields → Fields
  | [] => [(key, v)]
  | (k, w) :: rest =>
    if key < k then (key, v) :: (k, w) :: rest
    else if key = k then (k, w) :: rest
    else (k, w) :: insertNew key v rest

end Fields

namespace Document

instance : Inhabited Document := ⟨.null⟩

/-- A whole number as a document. -/
def ofNat (n : Nat) : Document :=
  .number (.integer n)

/-- A document that may be absent; absence is null. -/
def ofOption : Option Document → Document
  | some d => d
  | none => .null

mutual

/-- The same document with the fields of every object sorted by key, the last of equal keys kept. -/
def canonical : Document → Document
  | .array entries => .array (canonicalEntries entries)
  | .object fields => .object (canonicalFields fields)
  | .null => .null
  | .bool b => .bool b
  | .number n => .number n
  | .string s => .string s

/-- `canonical` on the entries of an array. -/
def canonicalEntries : List Document → List Document
  | [] => []
  | d :: rest => d.canonical :: canonicalEntries rest

/-- `canonical` on the fields of an object. -/
def canonicalFields : List (String × Document) → List (String × Document)
  | [] => []
  | (key, d) :: rest => Fields.insertNew key d.canonical (canonicalFields rest)

end

end Document

end PatternTree
