/-!
# The lines of a text

A table of the offsets at which lines begin, built by one reading of the text that looks back at the
character before, and the search for an offset in such a table.
-/

namespace JavaScope

/-- The table of line beginnings, from what is known before the rest of a text: the table so far, the
character before, and the offset of the next one. A line feed behind a carriage return does not
begin one more line, but moves the beginning of the last one. -/
def lineStartsFrom (starts : Array Nat) (previous : Option Char) (index : Nat) :
    List Char → Array Nat
  | [] => starts
  | c :: text =>
    let starts :=
      if c = '\n' then
        if previous = some '\r' then starts.pop.push (index + 1) else starts.push (index + 1)
      else if c = '\r' then starts.push (index + 1)
      else starts
    lineStartsFrom starts (some c) (index + 1) text

/-- The offsets at which the lines of a text begin. -/
def lineStarts (text : List Char) : Array Nat :=
  lineStartsFrom #[0] none 0 text

/-- Where a number goes in between two places of an ascending table, behind the entries that are
equal to it. The middle of what is left is compared until nothing is left. -/
@[semireducible]
def bisectRight (table : Array Nat) (n : Int) (low high : Nat) (inside : high ≤ table.size) : Nat :=
  if more : low < high then
    let middle := (low + high) / 2
    have : middle < high := by omega
    if n < table[middle] then bisectRight table n low middle (by omega)
    else bisectRight table n (middle + 1) high inside
  else low
termination_by high - low

end JavaScope
