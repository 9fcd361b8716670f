/-!
# Positions and locations in a source text

* `Position` is a point of the text: its line, its column and its offset from the start.
* `Location` is the extent of a piece of syntax. Both ends are optional, since a client that builds
  a tree while reading the text knows the start long before the end.
* A location is **complete** when both ends are set, and **ordered** unless both are set and the end
  lies before the start. Order is a property to look at, never a condition for a write:
  `Location.write` stores whatever it is given.
-/

namespace PatternTree

/-- A point of the source text. -/
structure Position where
  /-- the line, as the client counts lines -/
  line : UInt32
  /-- the column within the line -/
  column : UInt32
  /-- the offset from the start of the text -/
  offset : UInt32
  deriving DecidableEq, Inhabited

namespace Position

/-- The text `line:column`. -/
def display (p : Position) : String :=
  toString p.line.toNat ++ ":" ++ toString p.column.toNat

end Position

/-- One of the two ends of a location. -/
inductive End where
  /-- where the piece of syntax begins -/
  | start
  /-- where it stops -/
  | stop
  deriving DecidableEq

/-- The extent of a piece of syntax; either end may still be unset. -/
structure Location where
  /-- the first position, once known -/
  start : Option Position := none
  /-- the position past the last one, once known -/
  stop : Option Position := none
  deriving DecidableEq, Inhabited

namespace Location

/-- The location with neither end set. -/
def unset : Location := {}

/-- Sets one end and keeps the other. -/
def write (l : Location) : End → Position → Location
  | .start, p => { l with start := some p }
  | .stop, p => { l with stop := some p }

/-- What is stored for an end. -/
def read (l : Location) : End → Option Position
  | .start => l.start
  | .stop => l.stop

/-- Both ends are set. -/
def isComplete (l : Location) : Bool :=
  l.start.isSome && l.stop.isSome

/-- The offsets of the two ends of a complete location. -/
def range? (l : Location) : Option (UInt32 × UInt32) :=
  match l.start, l.stop with
  | some s, some e => some (s.offset, e.offset)
  | _, _ => none

/-- The location does not end before it starts. A location with an unset end is ordered. -/
def isOrdered (l : Location) : Bool :=
  match l.range? with
  | some (s, e) => s ≤ e
  | none => true

@[simp] theorem read_write_self (l : Location) (e : End) (p : Position) :
    (l.write e p).read e = some p := by
  cases e <;> rfl

theorem read_write_of_ne (l : Location) {e f : End} (h : e ≠ f) (p : Position) :
    (l.write e p).read f = l.read f := by
  cases e <;> cases f
  · exact absurd rfl h
  · rfl
  · rfl
  · exact absurd rfl h

end Location

end PatternTree
