/-!
# Range tables

A character class outside ASCII is a list of closed ranges of code points, or of runs in which
every second code point counts.
-/

namespace JavaScope.Text

/-- The code point lies in one of the closed ranges. -/
def inRanges (table : List (Nat × Nat)) (code : Nat) : Bool :=
  table.any fun (low, high) => low ≤ code && code ≤ high

/-- The code point lies on one of the runs `(first, last, step)`. -/
def onRuns (table : List (Nat × Nat × Nat)) (code : Nat) : Bool :=
  table.any fun (first, last, step) =>
    first ≤ code && code ≤ last && (code - first) % step == 0

end JavaScope.Text
