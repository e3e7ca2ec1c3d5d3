import JavaScope.Unit.Basic

/-!
# Bound contexts

A source together with the unit it is bound to, which answers where things are. Unit locations are
locations of the context's source that remember the node they stand for.
-/

namespace JavaScope

/-- A source bound to a unit that has a root. -/
structure Context where
  source : Source
  unit : ParsedUnit
  root : Node
  root_eq : unit.root? = some root

/-- A location that stands for a node. -/
structure UnitLocation extends Location where
  node : Node

/-- The short text of a node: what it declares, or the beginning of its text. -/
def Document.describe (d : Document) (n : Node) : String :=
  let declared := fun label => label ++ "(" ++ String.intercalate ", " (d.declaredNames n) ++ ")"
  if n.kind.isTypeDeclaration then declared "Type"
  else if n.kind.isMethodDeclaration then declared "Method"
  else if n.kind.isFieldDeclaration then declared "Field"
  else if n.kind.isParameterDeclaration then declared "Parameter"
  else if n.kind == .localVariableDeclaration then declared "Var"
  else "Node(" ++ n.kind.name ++ ": " ++ excerpt (d.textOf n) 30 ++ ")"

/-- The short text of a node that may be missing. -/
def Document.describe? (d : Document) : Option Node → String
  | some n => d.describe n
  | none => "Unit()"

namespace Context

/-- The source bound to a unit, if the unit has a root. -/
def of? (source : Source) (unit : ParsedUnit) : Except Fault Context :=
  match h : unit.root? with
  | some root => .ok ⟨source, unit, root, h⟩
  | none => .error .missing

/-- The text and tree of the unit. -/
def document (c : Context) : Document :=
  c.unit.document

/-- The unit location of a node, in the source of the context. -/
def locateUnitNode (c : Context) (n : Node) : Except Fault UnitLocation := do
  let (start, stop) := c.unit.charRange n
  let location ← Location.of? (some c.source) (c.source.positionAt start) (c.source.positionAt stop)
  return { location with node := n }

/-- The label of a unit location. -/
def label (c : Context) (l : UnitLocation) : String :=
  c.document.describe l.node

/-- The text of a unit location. -/
def display (c : Context) (l : UnitLocation) : String :=
  "UnitLocation(" ++ c.label l ++ ", start=" ++ l.start.display ++ ", end=" ++ l.stop.display ++ ")"

end Context

end JavaScope
