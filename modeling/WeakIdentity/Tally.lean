import WeakIdentity.Location

/-! Tallies: how often each location has been recorded, in the order of first appearance. -/

namespace WeakIdentity

/-- The locations recorded so far with their counts, each location once. -/
structure Tally where
  rows : List (Location × Nat) := []

namespace Tally

/-- Rows with one more at `location`. -/
def recordIn (location : Location) : List (Location × Nat) → List (Location × Nat)
  | [] => [(location, 1)]
  | (key, count) :: rest =>
    if key = location then (key, count + 1) :: rest else (key, count) :: recordIn location rest

def record (tally : Tally) (location : Location) : Tally := ⟨recordIn location tally.rows⟩

/-- How often a location has been recorded. -/
def count (tally : Tally) (location : Location) : Nat :=
  ((tally.rows.find? fun row => row.1 = location).map Prod.snd).getD 0

/-- How many different locations have been recorded. -/
def size (tally : Tally) : Nat := tally.rows.length

def ofList (locations : List Location) : Tally := locations.foldl record {}

end Tally

end WeakIdentity
