import JavaScope.Range.Location

/-!
# Relations between locations

How two ranges lie to each other, by their offsets alone. Ranges are closed: two of them that touch
at one offset intersect there.
-/

namespace JavaScope

/-- How two locations lie to each other; one of these holds of every two. -/
inductive Relation where
  | same
  | covers
  | coveredBy
  | overlaps
  | outside
  deriving DecidableEq, Repr

namespace Relation

/-- The name of a relation. -/
def name : Relation → String
  | same => "same"
  | covers => "covers"
  | coveredBy => "covered_by"
  | overlaps => "overlaps"
  | outside => "outside"

/-- The relation seen from the other location. -/
def converse : Relation → Relation
  | covers => coveredBy
  | coveredBy => covers
  | r => r

end Relation

namespace Location

/-- The first location contains the second, boundaries included. -/
def covers (a b : Location) : Bool :=
  a.start.offset ≤ b.start.offset && b.stop.offset ≤ a.stop.offset

/-- The two closed ranges share an offset. -/
def intersects (a b : Location) : Bool :=
  a.start.offset ≤ b.stop.offset && b.start.offset ≤ a.stop.offset

/-- The two closed ranges share no offset. -/
def outside (a b : Location) : Bool :=
  !a.intersects b

/-- The first location lies strictly within the second, or both have one range. -/
def inside (a b : Location) : Bool :=
  b.same a || (b.start.offset < a.start.offset && a.stop.offset < b.stop.offset)

/-- The offset lies in the location, whose end does not count. -/
def holdsOffset (l : Location) (offset : Int) : Bool :=
  (l.start.offset : Int) ≤ offset && offset < l.stop.offset

/-- The second location ends at or before the start of the first. -/
def isBefore (a b : Location) : Bool :=
  b.stop.offset ≤ a.start.offset

/-- The second location starts at or after the end of the first. -/
def isAfter (a b : Location) : Bool :=
  a.stop.offset ≤ b.start.offset

/-- The end of the first location lies strictly inside the second. -/
def endsInside (a b : Location) : Bool :=
  b.start.offset < a.stop.offset && a.stop.offset < b.stop.offset

/-- How two locations lie to each other. -/
def relation (a b : Location) : Relation :=
  if a.same b then .same
  else if a.covers b then .covers
  else if b.covers a then .coveredBy
  else if a.intersects b then .overlaps
  else .outside

end Location

end JavaScope
