import JavaScope.Source.Basic

/-!
# Locations

A range of a source between two positions. It ends no earlier than it starts and lies inside the
content of its source; a location without a source is free of the second condition. Locations are
ordered by their starts, the narrower first where two start together.
-/

namespace JavaScope

/-- A range of a source. -/
structure Location where
  source : Option Source
  start : Position
  stop : Position
  start_le_stop : start.offset ≤ stop.offset
  stop_le_length : ∀ s, source = some s → stop.offset ≤ s.length

namespace Location

/-- The location between two positions. -/
def of? (source : Option Source) (start stop : Position) : Except Fault Location :=
  if ordered : start.offset ≤ stop.offset then
    match source with
    | none => .ok ⟨none, start, stop, ordered, by simp⟩
    | some s =>
      if inside : stop.offset ≤ s.length then
        .ok ⟨some s, start, stop, ordered, by rintro _ ⟨⟩; exact inside⟩
      else .error (.pastContent stop.offset s.length)
  else .error (.reversedRange start.offset stop.offset)

/-- The number of characters. -/
def length (l : Location) : Nat :=
  l.stop.offset - l.start.offset

/-- The location holds no character: it marks a caret. -/
def isEmpty (l : Location) : Bool :=
  l.start.offset == l.stop.offset

/-- The text at a location, where it has a source. -/
def text? (l : Location) : Option String :=
  l.source.map fun s => s.slice l.start.offset l.stop.offset

/-- Both locations have one range. -/
def same (a b : Location) : Bool :=
  a.start.same b.start && a.stop.same b.stop

/-- Both locations have one range of one source. -/
def equal (a b : Location) : Bool :=
  a.source == b.source && a.same b

/-- The order of locations: by start, then by end. -/
def lt (a b : Location) : Bool :=
  a.start.offset < b.start.offset ||
    (a.start.offset == b.start.offset && a.stop.offset < b.stop.offset)

/-- The first location comes before the second or is equal to it. -/
def le (a b : Location) : Bool :=
  a.lt b || a.equal b

/-- The first location neither comes before the second nor is equal to it. -/
def gt (a b : Location) : Bool :=
  !a.lt b && !a.equal b

/-- The first location does not come before the second. -/
def ge (a b : Location) : Bool :=
  !a.lt b

/-- Locations in their order; those with one range keep their places. -/
def sort (ls : List Location) : List Location :=
  ls.mergeSort fun a b => !b.lt a

/-- The location starts at or before a position. -/
def begins (l : Location) (p : Position) : Bool :=
  l.start.offset ≤ p.offset

/-- The location ends at or before a position. -/
def ends (l : Location) (p : Position) : Bool :=
  l.stop.offset ≤ p.offset

/-- The text of a location. -/
def display (l : Location) : String :=
  "Location(start=" ++ l.start.display ++ ", end=" ++ l.stop.display ++ ")"

end Location

namespace Source

/-- The text at a location, which may belong to another source. -/
def textAt (s : Source) (l : Location) : String :=
  s.slice l.start.offset l.stop.offset

/-- The location between two offsets. -/
def location? (s : Source) (start stop : Int) : Except Fault Location :=
  if start < 0 || stop < start then .error (.invalidOffsets start stop)
  else if stop > s.length then .error (.outsideSource stop s.name s.length)
  else Location.of? (some s) (s.positionAt start.toNat) (s.positionAt stop.toNat)

/-- The location of the whole source. -/
def fullLocation? (s : Source) : Except Fault Location :=
  s.location? 0 s.length

theorem location?_isOk {s : Source} {start stop : Nat} (ordered : start ≤ stop)
    (inside : stop ≤ s.length) : ∃ l, s.location? start stop = .ok l ∧
      l.source = some s ∧ l.start = s.positionAt start ∧ l.stop = s.positionAt stop := by
  have h1 : ¬ ((start : Int) < 0 ∨ stop < start) := by omega
  have h2 : ¬ (stop : Int) > s.length := by omega
  simp [location?, h1, h2, Location.of?, ordered, inside]

end Source

end JavaScope
