import Reporting.Json.Basic

/-!
# Report rows

A row maps output keys to display values.  A projected row also remembers the value behind each
cell, under the key of the cell and under the path it was read from, so that sorting goes by value
and not by display text.  Only the display values are part of the output.
-/

namespace Reporting

/-- One line of a report. -/
structure Row where
  values : Members
  raw : Members
  byPath : Members

namespace Row

/-- A row without cells. -/
def empty : Row := ⟨[], [], []⟩

/-- Set a cell. -/
def insert (key : String) (value : Json) (row : Row) : Row :=
  { row with values := Keyed.insert key value row.values }

/-- Set a cell together with the value behind it. -/
def insertFormatted (key : String) (display raw : Json) (row : Row) : Row :=
  { row with
    values := Keyed.insert key display row.values
    raw := Keyed.insert key raw row.raw }

/-- Remember the value at a path.  The first value for a path stays. -/
def insertPathValue (path : String) (raw : Json) (row : Row) : Row :=
  { row with byPath := Keyed.insertNew path raw row.byPath }

/-- The display value of a cell. -/
def get? (row : Row) (key : String) : Option Json :=
  Keyed.find? key row.values

/-- Whether there is a cell under a key. -/
def contains (row : Row) (key : String) : Bool :=
  Keyed.contains key row.values

/-- The number of cells. -/
def size (row : Row) : Nat :=
  row.values.length

/-- The value to sort by: the one behind the cell, else the display value, else the value at the
path. -/
def sortValue? (row : Row) (key : String) : Option Json :=
  (Keyed.find? key row.raw).or ((Keyed.find? key row.values).or (Keyed.find? key row.byPath))

/-- A row of plain values. -/
def ofMembers (values : Members) : Row := ⟨values, [], []⟩

/-- The display values as an object. -/
def json (row : Row) : Json := .obj row.values

end Row

end Reporting
