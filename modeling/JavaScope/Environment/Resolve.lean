import JavaScope.Environment.Basic

/-!
# Types of a unit

The binding that a type in the text stands for. Simple names are looked up outwards from the place
of their use; arrays, generic types with arguments, primitive types and recovered types are made on
first use and shared afterwards.
-/

namespace JavaScope

/-! ## Names -/

/-- The simple names of the types that every file knows without an import. -/
def knownTypes : List String := [
  "Object", "String", "System", "Math", "Integer", "Long", "Short", "Byte", "Character", "Boolean",
  "Double", "Float", "Number", "Void", "Class", "Enum", "Record", "Iterable", "Comparable",
  "CharSequence", "Runnable", "Thread", "StringBuilder", "StringBuffer", "Throwable", "Exception",
  "Error", "RuntimeException", "IllegalArgumentException", "IllegalStateException",
  "NullPointerException", "UnsupportedOperationException", "IndexOutOfBoundsException",
  "ArithmeticException", "ClassCastException", "InterruptedException",
  "CloneNotSupportedException", "Override", "Deprecated", "SuppressWarnings",
  "FunctionalInterface", "SafeVarargs", "AutoCloseable", "Cloneable"]

/-- The segments of a dotted name. -/
def dottedSegments : List Char → List (List Char)
  | [] => [[]]
  | c :: text =>
    if c == '.' then [] :: dottedSegments text
    else match dottedSegments text with
      | [] => [[c]]
      | segment :: segments => (c :: segment) :: segments

/-- The number of opening brackets in a text. -/
def bracketCount (text : String) : Nat :=
  text.toList.count '['

namespace Environment

open EnvironmentM

/-! ## Types made on first use -/

/-- The type of a qualified name that the unit does not declare, made on first use. -/
def recoveredType (qualifiedName : String) : EnvironmentM TypeId := do
  match (← get).recovered.lookup qualifiedName with
  | some t => return t
  | none =>
    let t ← addType {
      name := lastSegment qualifiedName
      qualifiedName := qualifiedName
      package := qualifierOfName qualifiedName
      modifiers := .public
      recovered := true }
    modify fun e => { e with recovered := (qualifiedName, t) :: e.recovered }
    return t

/-- The type above all others. -/
def objectType : EnvironmentM TypeId :=
  recoveredType objectName

/-- The derived type that is filed under a key, made on first use. -/
def derivedType (key : String) (b : TypeBinding) : EnvironmentM TypeId := do
  match (← get).derived.lookup key with
  | some t => return t
  | none =>
    let t ← addType b
    modify fun e => { e with derived := (key, t) :: e.derived }
    return t

/-- The primitive type of a name. -/
def primitiveType (name : String) : EnvironmentM TypeId :=
  derivedType name { name := name, qualifiedName := name, kind := .primitive }

/-- The array type with this many dimensions over a type that is no array. -/
def flatArrayOf (element : TypeId) (dimensions : Int) : EnvironmentM TypeId := do
  let s ← read store
  let b := s.type element
  derivedType ((← ofExcept (s.typeKey element)) ++ brackets dimensions) {
    name := b.name ++ brackets dimensions
    qualifiedName := b.fullName ++ brackets dimensions
    package := b.package
    kind := .array
    elementType := some element
    dimensions := dimensions
    modifiers := .public }

/-- The array type with this many dimensions over a type; an array as element adds its own. Without
dimensions it is the type itself. -/
def arrayOf (element : Option TypeId) (dimensions : Int) : EnvironmentM (Option TypeId) := do
  match element with
  | none => return none
  | some element =>
    if dimensions ≤ 0 then return some element
    let b := (← read store).type element
    if b.isArray then
      return some (← flatArrayOf (← ofExcept (needed b.elementType)) (dimensions + b.dimensions))
    else return some (← flatArrayOf element dimensions)

/-- A generic type with arguments; without any it is the generic type itself. -/
def parameterized (generic : Option TypeId) (arguments : List TypeId) :
    EnvironmentM (Option TypeId) := do
  if arguments.isEmpty then return generic
  let generic ← ofExcept (needed generic)
  let s ← read store
  let b := s.type generic
  let argumentKeys ← ofExcept (arguments.mapM s.typeKey)
  let key := (← ofExcept (s.typeKey generic)) ++ "<" ++ String.intercalate "," argumentKeys ++ ">"
  let names := "<" ++ String.intercalate "," (arguments.map fun t => (s.type t).name) ++ ">"
  return some (← derivedType key {
    name := b.name ++ names
    qualifiedName := b.fullName ++ names
    package := b.package
    kind := .parameterized
    genericType := some generic
    typeArguments := arguments.map some
    declaringClass := b.declaringClass
    modifiers := b.modifiers })

/-! ## Names of types -/

/-- The type that a simple name stands for inside some nodes, the innermost first: the nearest one
in scope, a top-level type, an imported type, a type that every file knows, or else a recovered
one. -/
def resolveTypeNameIn (scopes : List Node) (name : String) : EnvironmentM TypeId := do
  let e ← get
  match (scopes.findSome? (e.typeInScopeOf · name)).or (e.typeNamed name e.types) with
  | some t => return t
  | none =>
    match e.imports.find? fun i => !i.isStatic && !i.isOnDemand && i.simpleName == name with
    | some i =>
      match e.findType i.name with
      | some t => return t
      | none => recoveredType i.name
    | none =>
      if knownTypes.contains name then recoveredType ("java.lang." ++ name)
      else recoveredType name

/-- The type that a simple name stands for at a node. -/
def resolveTypeName (name : String) (place : Node) : EnvironmentM TypeId :=
  resolveTypeNameIn place.climb name

/-- The member type that is reached from a type along a path of names. -/
def memberAlong (e : Environment) : TypeId → List String → Option TypeId
  | t, [] => some t
  | t, name :: path => do
    e.memberAlong (← e.typeNamed name (e.store.type t).declaredTypes) path

/-- The type that a dotted name stands for inside some nodes, the innermost first: a declared type
of that qualified name, or the member type reached from the type of its first segment, or else a
recovered one. -/
def resolveQualifiedTypeIn (scopes : List Node) (dotted : String) : EnvironmentM TypeId := do
  match (← get).findType dotted with
  | some t => return t
  | none =>
    let segments := (dottedSegments dotted.toList).map String.ofList
    let first ← resolveTypeNameIn scopes (segments.headD "")
    let e ← get
    -- an unknown first segment may be a package, so the dotted name stands as a whole
    if (e.store.type first).recovered then recoveredType dotted
    else match e.memberAlong first segments.tail with
      | some t => return t
      | none => recoveredType dotted

/-- The type that a dotted name stands for at a node. -/
def resolveQualifiedType (dotted : String) (place : Node) : EnvironmentM TypeId :=
  resolveQualifiedTypeIn place.climb dotted

/-- The dotted name of a scoped type, its annotations and arguments left out. -/
def scopedName (d : Document) : Node → String :=
  Node.fold fun n below =>
    match n.kind with
    | .genericType => ((below.filter (·.1.isNamed)).head?.map (·.2)).getD ""
    | .scopedTypeIdentifier =>
      String.intercalate "." ((below.filter fun (c, _) => c.isNamed &&
        match c.kind with
        | .typeIdentifier | .scopedTypeIdentifier | .genericType => true
        | _ => false).map (·.2))
    | _ => d.textOf n

/-! ## Types in the text -/

/-- How the type at a node is resolved, given the place that decides what is in scope, and how those
at the named nodes below are. -/
structure TypeReading where
  here : Node → EnvironmentM (Option TypeId)
  parts : List (Node → EnvironmentM (Option TypeId))

/-- The types at several nodes; unresolved ones are left out. -/
def readAll (place : Node) (readings : List (Node → EnvironmentM (Option TypeId))) :
    EnvironmentM (List TypeId) := do
  return (← readings.mapM fun read => read place).filterMap id

/-- How the type at one node is resolved, from how those below are. -/
def typeReadingStep (n : Node) (below : List (Node × TypeReading)) : TypeReading :=
  let named := below.filter (·.1.isNamed)
  { parts := named.map (·.2.here)
    here := fun place => do
      let d := (← get).document
      match n.kind with
      | .integralType | .floatingPointType | .booleanType | .voidType =>
        return some (← primitiveType (d.textOf n))
      | .arrayType =>
        let element ← match below.find? (·.1.field == some .element) with
          | some (_, element) => element.here place
          | none => pure none
        arrayOf element (bracketCount (d.textOf? (n.childByField .dimensions)))
      | .genericType =>
        let (_, base) ← ofExcept (needed named.head?)
        let generic ← base.here place
        let arguments ← match below.find? (·.1.kind == .typeArguments) with
          | some (_, list) => readAll place list.parts
          | none => pure []
        parameterized generic arguments
      | .typeIdentifier => return some (← resolveTypeName (d.textOf n) place)
      | .scopedTypeIdentifier => return some (← resolveQualifiedType (scopedName d n) place)
      | .annotatedType =>
        let (_, last) ← ofExcept (needed named.getLast?)
        last.here place
      | .wildcard =>
        let bounds ← readAll place ((named.filter fun (c, _) =>
          !(c.kind == .annotationNode || c.kind == .markerAnnotationNode)).map (·.2.here))
        return some (← addType {
          name := d.textOf n
          qualifiedName := d.textOf n
          kind := .wildcard
          bounds := bounds.map some })
      | _ => return some (← recoveredType (d.textOf n)) }

/-- The type at a node, with the names in it as seen from `place`. -/
def resolveType (n place : Node) : EnvironmentM (Option TypeId) :=
  (n.fold typeReadingStep).here place

/-- The type at a node that may be missing. -/
def resolveType? (n : Option Node) (place : Node) : EnvironmentM (Option TypeId) :=
  match n with
  | some n => resolveType n place
  | none => return none

end Environment

end JavaScope
