import JavaScope.Unit.Context

/-!
# Selections

The node that a range of characters selects, and the nodes that it covers. Only named nodes below
named nodes count, and no synthetic ones are answered.
-/

namespace JavaScope

namespace ParsedUnit

/-- The node spans all characters from `start` to `stop`. -/
def spans (u : ParsedUnit) (start stop : Nat) (n : Node) : Bool :=
  n.isNamed && (u.charRange n).1 ≤ start && stop ≤ (u.charRange n).2

/-- The caret lies strictly inside the node. -/
def holdsCaret (u : ParsedUnit) (caret : Nat) (n : Node) : Bool :=
  (u.charRange n).1 < caret && caret < (u.charRange n).2

/-- The number of characters of a node. -/
def charLength (u : ParsedUnit) (n : Node) : Nat :=
  (u.charRange n).2 - (u.charRange n).1

/-- The shorter of two nodes, and the second one where both are equally long. -/
def shorter (u : ParsedUnit) (best : Option Node) (n : Node) : Option Node :=
  match best with
  | some m => if u.charLength n ≤ u.charLength m then some n else some m
  | none => some n

/-- The last of the shortest nodes. -/
def shortest? (u : ParsedUnit) (nodes : List Node) : Option Node :=
  nodes.foldl u.shorter none

/-- The node touches the range from `start` to `stop`. -/
def touches (u : ParsedUnit) (start stop : Nat) (n : Node) : Bool :=
  n.isNamed && start ≤ (u.charRange n).2 && (u.charRange n).1 ≤ stop

/-- The node is no synthetic one and lies inside the range from `start` to `stop`. -/
def isCovered (u : ParsedUnit) (start stop : Nat) (n : Node) : Bool :=
  start ≤ (u.charRange n).1 && (u.charRange n).2 ≤ stop && !u.isSynthetic n

end ParsedUnit

namespace Context

/-- The nodes that span a range, outermost first. -/
def spanningNodes (c : Context) (start stop : Nat) : List Node :=
  (c.root.visited (c.unit.spans start stop)).filter fun n =>
    c.unit.spans start stop n && !c.unit.isSynthetic n

/-- The innermost node that spans a range. For a caret, a node that holds it strictly inside comes
before one that starts or ends there. -/
def selectedNode (c : Context) (start stop : Nat) : Option Node :=
  let nodes := c.spanningNodes start stop
  if start = stop then
    match c.unit.shortest? (nodes.filter (c.unit.holdsCaret start)) with
    | some n => some n
    | none => c.unit.shortest? (nodes.filter fun n => !c.unit.holdsCaret start n)
  else c.unit.shortest? nodes

/-- The outermost nodes inside a range, in the order of the text. -/
def coveredNodes (c : Context) (start stop : Nat) : List Node :=
  (c.root.visited fun n => c.unit.touches start stop n && !c.unit.isCovered start stop n).filter
    fun n => c.unit.touches start stop n && c.unit.isCovered start stop n

/-- The first of the outermost nodes inside a location. -/
def firstCovered (c : Context) (l : Location) : Option Node :=
  (c.coveredNodes l.start.offset l.stop.offset).head?

end Context

end JavaScope
