import JavaScope.Unit.Selection
import JavaScope.Range.Relation

/-!
# Unit queries

The queries for program units: the declarations of a kind, by name and within a location, and the
unit that a location selects. Answers come in the order of the text.
-/

namespace JavaScope

/-- The kinds of units that can be located by name. -/
inductive UnitKind where
  | classes
  | methods
  | fields
  | parameters
  | locals
  deriving DecidableEq, Repr

namespace UnitKind

/-- The query's name for a kind of unit. -/
def name : UnitKind → String
  | classes => "ClassUnit"
  | methods => "MethodUnit"
  | fields => "FieldUnit"
  | parameters => "ParameterUnit"
  | locals => "VarUnit"

/-- The kind of unit with this short name. -/
def ofName? : String → Option UnitKind
  | "class" => some classes
  | "method" => some methods
  | "field" => some fields
  | "parameter" => some parameters
  | "var" => some locals
  | _ => none

/-- The kinds of nodes that are units of a kind. -/
def includes : UnitKind → Kind → Bool
  | classes => Kind.isTypeDeclaration
  | methods => Kind.isMethodDeclaration
  | fields => Kind.isFieldDeclaration
  | parameters => Kind.isParameterDeclaration
  | locals => fun kind => kind == .localVariableDeclaration

end UnitKind

/-- A query for program units. -/
inductive UnitQuery where
  /-- The declarations of a kind, of a name where one is given, within a location where one is
  given. -/
  | named (kind : UnitKind) (name : Option String) (scope : Option Location)
  /-- The unit that a location selects. -/
  | selected (location : Location)

namespace UnitQuery

/-- The query for the declarations of a kind; a name may not be blank. -/
def named? (kind : UnitKind) (name : Option String) (scope : Option Location) :
    Except Fault UnitQuery :=
  if name.any fun name => Text.isBlankText name.toList then .error .blankName
  else .ok (.named kind name scope)

/-- What the query looks for, in short. -/
def identifier : UnitQuery → String
  | named _ name _ => name.getD "all"
  | selected l => s!"[{l.start.offset}, {l.stop.offset}]"

/-- The text of a query. -/
def display : UnitQuery → String
  | named kind name scope => kind.name ++ "(" ++ identifier (named kind name scope) ++ ")"
  | selected l => "SelectedUnit(" ++ identifier (selected l) ++ ")"

/-- The text of a locator for a source after its last query. -/
def locatorDisplay (source : String) : Option UnitQuery → String
  | none => s!"ProgramUnitLocator({source})"
  | some q => "Search for " ++ q.identifier ++ " " ++ q.display ++ " in " ++ source

end UnitQuery

namespace Context

/-- The node declares a unit of the kind, and of the name where one is given. -/
def declares (c : Context) (kind : UnitKind) (name : Option String) (n : Node) : Bool :=
  n.isNamed && kind.includes n.kind && !c.unit.isSynthetic n &&
    name.all fun name => (c.document.declaredNames n).contains name

/-- The nodes that declare units of a kind, in the order of the text. -/
def declarations (c : Context) (kind : UnitKind) (name : Option String) : List Node :=
  (c.root.visited Node.isNamed).filter (c.declares kind name)

/-- The locations of the units that a query looks for. -/
def locate (c : Context) (query : UnitQuery) : Except Fault (List UnitLocation) :=
  match query with
  | .named kind name scope => do
    let found ← (c.declarations kind name).mapM c.locateUnitNode
    return found.filter fun l => scope.all fun scope => scope.covers l.toLocation
  | .selected l =>
    match c.selectedNode l.start.offset l.stop.offset with
    | some n => do return [← c.locateUnitNode n]
    | none => return []

/-- The innermost node that a location selects. -/
def nodeAt (c : Context) (l : Location) : Except Fault (Option Node) := do
  return (← c.locate (.selected l)).head?.map (·.node)

end Context

end JavaScope
