/-!
# Settings of the export

Which of the two forms of a location an exported document shows. Each is governed by a `Switch`.
-/

namespace PatternTree

/-- The settings of the export. -/
structure Settings where
  /-- show locations as pairs of positions -/
  locations : Bool := true
  /-- show locations as pairs of offsets -/
  ranges : Bool := false
  deriving DecidableEq, Inhabited

/-- A single setting. -/
inductive Switch where
  /-- whether locations are shown as pairs of positions -/
  | locations
  /-- whether locations are shown as pairs of offsets -/
  | ranges
  deriving DecidableEq

namespace Switch

/-- The name of a switch. -/
def name : Switch → String
  | .locations => "locations"
  | .ranges => "ranges"

/-- The switch with a given name. -/
def ofName? (key : String) : Option Switch :=
  [Switch.locations, Switch.ranges].find? (·.name == key)

@[simp] theorem ofName?_name (w : Switch) : ofName? w.name = some w := by
  cases w <;> decide

end Switch

namespace Settings

/-- The settings with one switch put in a position. -/
def set (s : Settings) : Switch → Bool → Settings
  | .locations, b => { s with locations := b }
  | .ranges, b => { s with ranges := b }

end Settings

end PatternTree
