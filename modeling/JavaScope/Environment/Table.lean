/-!
# Tables

Entries by key in the order in which the keys came. A key that comes again keeps its place and takes
the new value.
-/

namespace JavaScope

/-- The table with a value for a key. -/
def putEntry {κ α : Type} [DecidableEq κ] (key : κ) (value : α) : List (κ × α) → List (κ × α)
  | [] => [(key, value)]
  | (k, v) :: rest => if k = key then (key, value) :: rest else (k, v) :: putEntry key value rest

end JavaScope
