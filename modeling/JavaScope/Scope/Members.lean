import JavaScope.Scope.Local

/-!
# Members

The members of a type and of its supertypes: the search that offers them to a request, depth first,
and the search for the first one that fits, breadth first. Both visit each declaration once, so
they end also where supertypes run in circles.
-/

namespace JavaScope

open SearchM

/-! ## Supertypes -/

/-- The direct supertypes of a type. A type variable has its bounds, and a type variable without
bounds or an array has the type above all others. -/
def supertypes (t : TypeId) : EnvironmentM (List (Option TypeId)) := do
  let b := (← EnvironmentM.read Environment.store).type t
  if b.isTypeVariable then
    if b.bounds.isEmpty then return [some (← Environment.objectType)] else return b.bounds
  else match b.superclass with
    | some up => return some up :: b.interfaces
    | none =>
      if b.isArray then return some (← Environment.objectType) :: b.interfaces
      else return b.interfaces

/-! ## Offering members, depth first -/

/-- Offers the fields, the methods and the member types of a type, as the flags ask; constructors
are left out. -/
def offerMembers {σ : Type} [Request σ] (flags : Flags) (t : TypeId) : SearchM σ Bool := do
  let s ← SearchM.read Environment.store
  let b := s.type t
  let fields := if flags.vars then b.declaredFields.map BindingId.variable else []
  let methods := if flags.methods then
    (b.declaredMethods.filter fun m => !(s.method m).isConstructor).map BindingId.method else []
  let types := if flags.types then b.declaredTypes.map BindingId.type else []
  offerAll (fields ++ methods ++ types)

/-- Runs an action on each type in turn until one stops; the types visited so far are handed on. -/
def visitEach {σ : Type} (visit : Option TypeId → List TypeId → SearchM σ (Bool × List TypeId)) :
    List (Option TypeId) → List TypeId → SearchM σ (Bool × List TypeId)
  | [], visited => return (false, visited)
  | t :: rest, visited => do
    let (stopped, visited) ← visit t visited
    if stopped then return (true, visited)
    visitEach visit rest visited

/-- Offers the members of a type and its supertypes, of at most `fuel` types that were not visited
before; answers whether the request stopped, and the types visited. -/
def collectInheritedWith {σ : Type} [Request σ] (flags : Flags) :
    Nat → Option TypeId → List TypeId → SearchM σ (Bool × List TypeId)
  | fuel, t, visited => do
    let t ← ofExcept (needed t)
    let declaration := (← SearchM.read Environment.store).declarationOfType t
    if visited.contains declaration then return (false, visited)
    match fuel with
    | 0 => throw .endless
    | fuel + 1 =>
      let visited := declaration :: visited
      if ← offerMembers flags declaration then return (true, visited)
      let ups ← SearchM.lift (supertypes declaration)
      visitEach (collectInheritedWith flags fuel) ups visited

/-- Offers the members of a type and its supertypes, as far as they were not visited before. -/
def collectInherited {σ : Type} [Request σ] (flags : Flags) (t : TypeId)
    (visited : List TypeId) : SearchM σ (Bool × List TypeId) := do
  let fuel := (← SearchM.read Environment.store).types.size + 2
  collectInheritedWith flags fuel (some t) visited

/-! ## Outwards through the enclosing types -/

/-- Offers a type and its type parameters, unless it is anonymous. -/
def offerType {σ : Type} [Request σ] (flags : Flags) (t : TypeId) : SearchM σ Bool := do
  let b := (← SearchM.read Environment.store).type t
  if flags.types && !b.isAnonymous then
    offerAll ((t :: b.typeParameters).map .type)
  else return false

/-- Offers the local declarations around a local type. Those before the type, or before the instance
creation with an anonymous class, are in scope in it. -/
def collectAroundLocalType {σ : Type} [Request σ] (typeOf : Typing) (flags : Flags)
    (n outer : Node) (isAnonymous : Bool) : SearchM σ Bool := do
  let unit := (← get).environment.context.unit
  collectLocal typeOf outer (unit.charStart (if isAnonymous then outer else n)) flags

/-- Offers a type, its members and those of its supertypes, then the same for the types that enclose
it, and at last the top-level types. A stop among the members ends the members of that type only. -/
def collectTypesWith {σ : Type} [Request σ] (typeOf : Typing) (flags : Flags) :
    Nat → TypeId → List TypeId → SearchM σ Bool
  | 0, _, _ => throw .endless
  | fuel + 1, t, visited => do
    if ← offerType flags t then return true
    -- a stop among the members does not end the search outwards
    let (_, visited) ← collectInherited flags t visited
    let e := (← get).environment
    let b := e.store.type t
    if b.isLocal then
      match b.node, b.node.bind Node.parent with
      | some n, some outer =>
        if ← collectAroundLocalType typeOf flags n outer b.isAnonymous then return true
        match (← get).environment.enclosingType outer with
        | some around => collectTypesWith typeOf flags fuel around visited
        | none => return false
      | _, _ => return false
    else match b.declaringClass with
      | some around => collectTypesWith typeOf flags fuel around visited
      | none =>
        if flags.types && b.node.isSome then offerAll (e.types.map .type) else return false

/-- Offers a type with its members and what encloses it. -/
def collectTypes {σ : Type} [Request σ] (typeOf : Typing) (flags : Flags) (t : TypeId) :
    SearchM σ Bool := do
  let fuel := (← SearchM.read Environment.store).types.size + 1
  collectTypesWith typeOf flags fuel t []

/-! ## The first member, breadth first -/

/-- The first type whose declaration was not visited, and the types after it. -/
def nextUnvisited (s : Store) (visited : List TypeId) :
    List (Option TypeId) → Except Fault (Option (TypeId × List (Option TypeId)))
  | [] => return none
  | t :: rest => do
    let declaration := s.declarationOfType (← needed t)
    if visited.contains declaration then nextUnvisited s visited rest
    else return some (declaration, rest)

/-- The members of a type: fields, methods and member types. -/
def membersOf (s : Store) (t : TypeId) : List BindingId :=
  let b := s.type t
  b.declaredFields.map .variable ++ b.declaredMethods.map .method ++ b.declaredTypes.map .type

/-- The first fitting member of the types that wait and of their supertypes, breadth first, of at
most `fuel` types that were not visited before. -/
def findMemberWith (fits : Store → BindingId → Bool) :
    Nat → List (Option TypeId) → List TypeId → EnvironmentM (Option BindingId)
  | fuel, pending, visited => do
    let s ← EnvironmentM.read Environment.store
    match ← ofExcept (nextUnvisited s visited pending) with
    | none => return none
    | some (t, rest) =>
      match fuel with
      | 0 => throw .endless
      | fuel + 1 =>
        match (membersOf s t).find? (fits s) with
        | some member => return some member
        | none =>
          let ups ← supertypes t
          findMemberWith fits fuel (rest ++ ups) (t :: visited)

/-- The first member of a type or of its supertypes that fits. -/
def findMember (t : TypeId) (fits : Store → BindingId → Bool) :
    EnvironmentM (Option BindingId) := do
  let fuel := (← EnvironmentM.read Environment.store).types.size + 2
  findMemberWith fits fuel [some t] []

end JavaScope
