import JavaScope.Binding.Signature
import JavaScope.Binding.Summary
import JavaScope.Environment.Table
import JavaScope.Unit.Context

/-!
# Binding environments

The bindings of one bound context: a table from nodes to the bindings they declare, the top-level
types, the imports, and the types that were derived or recovered on the way. The queries of this
module only read; they climb from a node to what encloses it.
-/

namespace JavaScope

/-! ## Imports -/

/-- An import of a file. -/
structure Import where
  name : String
  isStatic : Bool
  isOnDemand : Bool
  deriving DecidableEq, Repr

/-- The part of a dotted name after its last dot. -/
def lastSegment (name : String) : String :=
  String.ofList ((name.toList.reverse.takeWhile (· != '.')).reverse)

/-- The part of a dotted name before its last dot; empty where there is no dot. -/
def qualifierOfName (name : String) : String :=
  String.ofList ((name.toList.reverse.dropWhile (· != '.')).drop 1).reverse

/-- The name by which an import is used. -/
def Import.simpleName (i : Import) : String :=
  lastSegment i.name

/-! ## Environments -/

/-- The bindings of a bound context. -/
structure Environment where
  context : Context
  package : String
  imports : List Import
  types : List TypeId
  declarations : List (NodeKey × BindingId)
  store : Store
  recovered : List (String × TypeId)
  derived : List (String × TypeId)

/-- An action on an environment, which outlives a fault. -/
abbrev EnvironmentM := ExceptT Fault (StateM Environment)

namespace EnvironmentM

/-- A reading of the environment. -/
def read {α : Type} (f : Environment → α) : EnvironmentM α := do
  return f (← get)

/-- Adds a type to the store. -/
def addType (b : TypeBinding) : EnvironmentM TypeId :=
  modifyGet fun e =>
    let (t, store) := e.store.addType b
    (t, { e with store := store })

/-- Changes a type of the store. -/
def modifyType (t : TypeId) (change : TypeBinding → TypeBinding) : EnvironmentM Unit :=
  modify fun e => { e with store := e.store.modifyType t change }

/-- Changes a variable of the store. -/
def modifyVariable (v : VariableId) (change : VariableBinding → VariableBinding) :
    EnvironmentM Unit :=
  modify fun e => { e with store := e.store.modifyVariable v change }

/-- Changes a method of the store. -/
def modifyMethod (m : MethodId) (change : MethodBinding → MethodBinding) : EnvironmentM Unit :=
  modify fun e => { e with store := e.store.modifyMethod m change }

end EnvironmentM

namespace Environment

/-- The environment of a context before anything is declared. -/
def empty (context : Context) : Environment :=
  ⟨context, "", [], [], [], {}, [], []⟩

/-- The text and tree of the unit. -/
def document (e : Environment) : Document :=
  e.context.document

/-- The bindings of the declarations, in the order of the table. -/
def bindings (e : Environment) : List BindingId :=
  e.declarations.map (·.2)

/-- The text of a binding in answers: its kind and its name, a question mark for a recovered type,
and for a declared binding its place in the table. -/
def label (e : Environment) (b : BindingId) : String :=
  let name := match b.typeId? with
    | some t => (e.store.type t).fullName ++ if (e.store.type t).recovered then "?" else ""
    | none => e.store.name b
  let place := match e.bindings.findIdx? (· == b) with
    | some i => "#" ++ toString i
    | none => ""
  b.kind.name ++ ":" ++ name ++ place

/-! ## Bindings of nodes -/

/-- The binding that is declared under a node's key. -/
def declaredAt (e : Environment) (n : Node) : Option BindingId :=
  e.declarations.lookup n.key

/-- The type that is declared under a node's key. -/
def typeAt (e : Environment) (n : Node) : Option TypeId :=
  (e.declaredAt n).bind BindingId.typeId?

/-- The method that is declared under a node's key. -/
def methodAt (e : Environment) (n : Node) : Option MethodId :=
  (e.declaredAt n).bind BindingId.methodId?

/-- The binding that a node declares: a declaration, the name of one, or a node with such a name. -/
def bindingOf (e : Environment) (n : Node) : Option BindingId :=
  match e.declaredAt n with
  | some b => some b
  | none =>
    match n.nameNode with
    | some name => e.declaredAt name
    | none => do
      let parent ← n.parent
      if (← parent.nameNode).isSame n then e.declaredAt parent else none

/-- The type whose declaration encloses a node or is the node. At the top of a file this is its
first type. -/
def enclosingType (e : Environment) (n : Node) : Option TypeId :=
  match n.climb.find? fun m =>
      m.kind.isTypeDeclaration || m.isAnonymousBody || m.kind == .program with
  | none => none
  | some m => if m.kind == .program then e.types.head? else e.typeAt m

/-- The type whose body holds the last of the nodes below a chain of nodes that climbs from it. -/
def bodyOwner (e : Environment) (below : Option Node) : List Node → Option TypeId
  | [] => none
  | n :: rest =>
    if n.kind.isTypeDeclaration then
      if below.any fun b => (n.childByField .body).any (·.isSame b) then e.typeAt n
      else e.bodyOwner (some n) rest
    else if n.isAnonymousBody then e.typeAt n
    else e.bodyOwner (some n) rest

/-- The type whose body holds a node; none in the header of a top-level type. -/
def parentType (e : Environment) (n : Node) : Option TypeId :=
  e.bodyOwner none n.climb

/-- The method that holds a node, within the type that encloses it. -/
def enclosingMethod (e : Environment) (n : Node) : Option MethodId :=
  match n.climb.find? fun m =>
      m.kind.isMethodDeclaration || m.kind.isTypeDeclaration || m.isAnonymousBody with
  | none => none
  | some m => if m.kind.isMethodDeclaration then e.methodAt m else none

/-! ## Types by name -/

/-- The first declared type of a qualified name; local types and type parameters do not count. -/
def findType (e : Environment) (qualifiedName : String) : Option TypeId :=
  e.bindings.findSome? fun b => do
    let t ← b.typeId?
    let type := e.store.type t
    if type.qualifiedName == qualifiedName && !type.isLocal && !type.isTypeVariable then some t
    else none

/-- The type of a list with a name. -/
def typeNamed (e : Environment) (name : String) (types : List TypeId) : Option TypeId :=
  types.find? fun t => (e.store.type t).name == name

/-- The type parameters that a binding declares. -/
def typeParametersOf (e : Environment) : BindingId → List TypeId
  | .type t => (e.store.type t).typeParameters
  | .method m => (e.store.method m).typeParameters
  | .variable _ => []

/-- The type of a name that a declared type offers to the nodes in it: itself or a member type. A
type parameter offers none. -/
def typeOfferedBy (e : Environment) (name : String) (t : TypeId) : Option TypeId :=
  let type := e.store.type t
  if type.isTypeVariable then none
  else if type.name == name then some t
  else e.typeNamed name type.declaredTypes

/-- The type of a name that a node declares or makes visible to the nodes in it: a type parameter, a
declared type or one of its member types, or a local type of a block. -/
def typeInScopeOf (e : Environment) (n : Node) (name : String) : Option TypeId :=
  let declared := do
    let b ← e.declaredAt n
    (e.typeNamed name (e.typeParametersOf b)).or (b.typeId?.bind (e.typeOfferedBy name))
  declared.or <|
    if n.kind.isLocalScope then do
      e.typeAt (← n.namedChildren.find? fun c =>
        c.kind.isTypeDeclaration && e.document.declaredName? c == some name)
    else none

end Environment

end JavaScope
