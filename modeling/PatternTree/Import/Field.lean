import PatternTree.Traced

/-!
# Reading the plain fields of an object

The readers take the fields of an object and the name of the node it is read as, their `owner`, for
use in faults.

* `readLocation` reads the location. An end that is missing or null stays unset, and the numbers of
  a position must be integers of 32 bits, written as such.
* `readString` reads a required text, `readFlag` a truth value that is false when missing.

A fault of a location has no location itself. A fault of another field carries the location of its
object; where that is not known yet it is read first, and its own fault comes before the other.
-/

namespace PatternTree

/-- A number of a position. -/
def readCoordinate (owner field : String) (fields : Fields) : Traced UInt32 :=
  match Fields.value? field fields with
  | some (.number (.integer n)) =>
    if 0 ≤ n ∧ n < 0x100000000 then pure (UInt32.ofNat n.toNat)
    else Traced.fail (.invalidField owner field "an unsigned integer")
  | _ => Traced.fail (.invalidField owner field "an unsigned integer")

/-- A position; missing or null it is unset. -/
def readPosition (owner : String) : Option Document → Traced (Option Position)
  | none => pure none
  | some .null => pure none
  | some (.object fields) => do
    let line ← readCoordinate owner "line" fields
    let column ← readCoordinate owner "column" fields
    let offset ← readCoordinate owner "offset" fields
    pure (some ⟨line, column, offset⟩)
  | some _ => Traced.fail (.invalidField owner "location" "a pair of positions")

/-- Sets an end of a location if there is a position for it. -/
def Location.setOptional (l : Location) (e : End) : Option Position → Traced Location
  | none => pure l
  | some p => l.set e p

/-- The location of an object; missing or null it is unset. -/
def readLocation (owner : String) (fields : Fields) : Traced Location :=
  match Fields.value? "location" fields with
  | none => pure .unset
  | some .null => pure .unset
  | some (.object ends) => do
    let start ← readPosition owner (Fields.value? "start" ends)
    let l ← Location.unset.setOptional .start start
    let stop ← readPosition owner (Fields.value? "end" ends)
    l.setOptional .stop stop
  | some _ => Traced.fail (.invalidField owner "location" "an object")

/-- A required text of an object at a known location. -/
def readString (owner field : String) (fields : Fields) (l : Location) : Traced String :=
  match Fields.value? field fields with
  | some (.string s) => pure s
  | some _ => Traced.fail (.invalidField owner field "a string") l
  | none => Traced.fail (.missingField owner field) l

/-- A truth value, false when missing. -/
def readFlag (owner field : String) (fields : Fields) : Traced Bool :=
  match Fields.value? field fields with
  | none => pure false
  | some (.bool b) => pure b
  | some _ => do
    let l ← readLocation owner fields
    Traced.fail (.invalidField owner field "a boolean") l

end PatternTree
