import JavaScope.Scope.Later
import JavaScope.Unit.Selection

/-!
# Scope queries

Which declarations are available at a name, at a location or in a unit, and whether one declaration
can be referred to at a place without hiding and with access.
-/

namespace JavaScope

/-! ## Selectors -/

/-- Where a scope is asked for: at a name, or at what a location selects. -/
inductive Selector where
  | node (n : Option Node)
  | location (l : Location)

/-- The distinct elements of a list, in the order in which they first come. -/
def distinct {α : Type} [DecidableEq α] (xs : List α) : List α :=
  xs.foldl (fun seen x => if x ∈ seen then seen else seen ++ [x]) []

namespace Scope

open EnvironmentM

/-- The node that a location selects for a scope query: the first one that it covers. -/
def selectedNode (l : Location) : EnvironmentM (Option Node) :=
  read fun e => e.context.firstCovered l

/-! ## Declarations in scope -/

/-- The declarations that are available at the start of a location, or of a node: locals first, then
the enclosing types. -/
def declarationsInUnit (l : Location) (flags : Flags) (n : Option Node) :
    EnvironmentM (List BindingId) := do
  let e ← get
  let n := (n.or (e.context.firstCovered l)).getD e.context.root
  let around := e.enclosingType n
  collected (.new around flags) do
    let _ ← collectLocal expressionType n l.start.offset flags
    match around with
    | some t => collectTypes expressionType flags t
    | none => return false

/-- The declarations that are available at a location: at a name as for the name; at a method or a
statement what is declared and used there; at a file or a type all that is in scope there. -/
def declarationsAtLocation (l : Location) (flags : Flags) : EnvironmentM (List BindingId) := do
  match ← selectedNode l with
  | none => return []
  | some n =>
    if n.kind == .identifier then declarationsAtName expressionType n flags
    else if n.kind.isMethodDeclaration || n.kind.isStatement then
      let e ← get
      let self := if n.kind.isMethodDeclaration && flags.methods then (e.bindingOf n).toList else []
      let inside ← declarationsAfter expressionType n flags false
      let around ← declarationsAfter expressionType n flags true
      return distinct (self ++ inside ++ around)
    else if n.kind == .program || n.kind.isTypeDeclaration then
      declarationsInUnit l flags (some n)
    else return []

/-- The declarations that are available at a name or at a location. -/
def declarationsInScope (selector : Selector) (flags : Flags) : EnvironmentM (List BindingId) := do
  match selector with
  | .node n => declarationsAtName expressionType (← ofExcept (needed n)) flags
  | .location l => declarationsAtLocation l flags

/-! ## Reachability of one declaration -/

/-- Searches for a declaration at a name: among the locals and, unless they settle it, among the
types around the name. Answers whether it is found and visible. -/
def searchAtName (n : Node) (around : TypeId) (flags : Flags) : SearchM Search Bool := do
  let unit := (← get).environment.context.unit
  let stopped ← collectLocal expressionType n (unit.charStart n) flags
  let afterLocals := (← get).request
  if afterLocals.found then return afterLocals.visible
  if stopped then return false
  let _ ← collectTypes expressionType flags around
  let afterTypes := (← get).request
  return afterTypes.found && afterTypes.visible

/-- The declaration can be referred to at a node. Where access is checked, it must be accessible and
not hidden. -/
def isDeclaredAt (b : Option BindingId) (n : Node) (flags : Flags) : EnvironmentM Bool := do
  match ← labelEnum expressionType n with
  | some t =>
    let s ← read Environment.store
    return (s.type (s.declarationOfType t)).declaredFields.any fun v => b == some (.variable v)
  | none =>
    match (← get).parentType n with
    | none => return false
    | some around =>
      let request := Search.new b (some around) flags
      match ← qualifierOf expressionType (some n) with
      | .absent => return (← SearchM.start request (searchAtName n around flags)).1
      | .type t =>
        let (_, request) ← SearchM.start request (collectInherited flags t [])
        return request.found && request.visible
      | .unknown => return false

/-- The declaration can be referred to at a name or at what a location selects. -/
def isDeclaredInScope (b : Option BindingId) (selector : Selector) (flags : Flags) :
    EnvironmentM Bool := do
  match selector with
  | .node n => isDeclaredAt b (← ofExcept (needed n)) flags
  | .location l =>
    match ← selectedNode l with
    | some n => isDeclaredAt b n flags
    | none => return false

/-! ## Later uses -/

/-- What is used after the start of the statement that a location selects. -/
def usedDeclarations (l : Location) (flags : Flags) : EnvironmentM (List BindingId) := do
  match ← selectedNode l with
  | some n => declarationsAfter expressionType n flags true
  | none => return []

/-- The names of the fields in use at a location: in scope, used after it, or imported by name. -/
def usedFieldNames (l : Location) : EnvironmentM (List String) := do
  let inScope ← declarationsInScope (.location l) .onlyVariables
  let used ← usedDeclarations l .onlyVariables
  let e ← get
  let imported := e.imports.filter fun i => i.isStatic && !i.isOnDemand
  return distinct ((inScope ++ used).map e.store.name ++ imported.map Import.simpleName)

/-! ## Everything at a location -/

/-- The name that stands for the unit as a whole: its first type, or else its source. -/
def outerTypeName (e : Environment) : String :=
  match e.types with
  | t :: _ => (e.store.type t).name
  | [] => e.context.source.name

/-- The simple name of the type that a binding belongs to. Variables of a unit without such a type
belong to the unit's outer type. -/
def ownerName (e : Environment) (b : BindingId) : String :=
  let nameOr := fun (t : Option TypeId) (otherwise : String) =>
    (t.map fun t => (e.store.type t).name).getD otherwise
  match b with
  | .variable v =>
    let declared := e.store.variable v
    match declared.declaringMethod with
    | some m => nameOr (e.store.method m).declaringClass (outerTypeName e)
    | none =>
      if declared.isField then nameOr declared.declaringClass (outerTypeName e)
      else outerTypeName e
  | b => nameOr (e.store.declaringClass b) ""

/-- The binding belongs to a type with the simple name of the type above all others. -/
def belongsToObject (e : Environment) (b : BindingId) : Bool :=
  ownerName e b == "Object"

/-- The variables, methods and types that are available at a location, without those of the type
above all others. -/
def allDeclarations (l : Location) (n : Option Node) : EnvironmentM (List BindingId) := do
  let vars ← declarationsInUnit l .onlyVariables n
  let methods ← declarationsInUnit l .onlyMethods n
  let types ← declarationsInUnit l .onlyTypes n
  let e ← get
  return distinct ((vars ++ methods ++ types).filter fun b => !belongsToObject e b)

/-- The types, methods and variables in scope or used at a location; on demand without those of the
type above all others. -/
def declarationsWithin (l : Location) (onlyLocal : Bool) : EnvironmentM (List BindingId) := do
  let types ← declarationsInScope (.location l) .onlyTypes
  let methods ← declarationsInScope (.location l) .onlyMethods
  let vars ← declarationsInScope (.location l) .onlyVariables
  let e ← get
  return distinct ((types ++ methods ++ vars).filter fun b =>
    !onlyLocal || !belongsToObject e b)

end Scope

end JavaScope
