import JavaScope.Scope.Search

/-!
# Local declarations

The local declarations that are in scope at a position of a method or an initializer, nearest first.
A node is in scope if it holds the position. In such a node the statements are walked from the last
to the first, so that a declaration that hides another one is offered before it, and only what
starts before the position is offered.
-/

namespace JavaScope

/-! ## The position -/

/-- The position at which a scope is asked for, in a unit whose nodes declare bindings, and what is
asked for. -/
structure ScopePoint where
  unit : ParsedUnit
  bindingOf : Node → Option BindingId
  position : Nat
  flags : Flags

namespace ScopePoint

/-- The node holds the position. -/
def isInside (p : ScopePoint) (n : Node) : Bool :=
  (p.unit.charRange n).1 ≤ p.position && p.position < (p.unit.charRange n).2

/-- The node starts before the position. -/
def startsBefore (p : ScopePoint) (n : Node) : Bool :=
  p.unit.charStart n < p.position

/-- The node ends before the position. -/
def endsBefore (p : ScopePoint) (n : Node) : Bool :=
  (p.unit.charRange n).2 < p.position

end ScopePoint

/-! ## The walk -/

/-- The walk at a node, and the walks at the named nodes directly below it. -/
structure LocalWalk (σ : Type) where
  here : SearchM σ Bool
  parts : List (Node × SearchM σ Bool)

namespace LocalWalk

variable {σ : Type} [Request σ] (typeOf : Typing) (p : ScopePoint)

/-- The walk at the first node with a field. -/
def atField (below : List (Node × LocalWalk σ)) (f : Field) : SearchM σ Bool :=
  match below.find? fun (c, _) => c.field == some f with
  | some (_, walk) => walk.here
  | none => return false

/-- The walks at the named nodes that start before the position, from the last to the first. -/
def backwards (walks : List (Node × SearchM σ Bool)) : SearchM σ Bool :=
  (walks.reverse.filter fun (n, _) => n.isNamed && p.startsBefore n).anyM (·.2)

/-- The backwards walks below the first of some nodes. -/
def backwardsBelow (chosen : Option (Node × LocalWalk σ)) : SearchM σ Bool :=
  match chosen with
  | some (_, walk) => backwards p walk.parts
  | none => return false

/-- Offers what a node declares, if this is asked for. -/
def offerDeclared (n : Node) (asked : Bool) : SearchM σ Bool :=
  if asked then SearchM.offer (p.bindingOf n) else return false

/-- The walk at the parameters of a lambda expression, from the last to the first. -/
def lambdaParameters (list : Node × LocalWalk σ) : SearchM σ Bool :=
  if list.1.kind == .identifier then SearchM.offer (p.bindingOf list.1)
  else list.2.parts.reverse.anyM fun (n, walk) =>
    if n.kind == .identifier then SearchM.offer (p.bindingOf n) else walk

/-- Offers the constants of the enum that a `switch` is on, at one of its labels. -/
def labelConstants (n : Node) : SearchM σ Bool := do
  match n.ancestorOfKinds [.switchExpression, .switchStatement] with
  | none => return false
  | some switch =>
    match switch.childByField .condition with
    | none => return false
    | some condition =>
      match ← SearchM.lift (typeOf condition) with
      | none => return false
      | some t =>
        let s ← SearchM.read Environment.store
        if s.isEnum t then SearchM.offerAll ((s.enumConstants t).map .variable) else return false

/-- The walk at a node, from the walks directly below it. -/
def atNode (n : Node) (below : List (Node × LocalWalk σ)) : SearchM σ Bool := do
  let named := (below.filter (·.1.isNamed)).map fun (c, walk) => (c, walk.here)
  if !n.isNamed then return false
  match n.kind with
  | .methodDeclaration | .constructorDeclaration | .compactConstructorDeclaration =>
    -- the body comes first: what it declares hides the parameters
    if p.isInside n then
      if ← atField below .body then return true
      if ← backwardsBelow p (below.find? (·.1.field == some .parameters)) then return true
      backwardsBelow p (below.find? (·.1.kind == .typeParameters))
    else return false
  | .block | .constructorBody | .switchBlock =>
    if p.isInside n then backwards p named else return false
  | .switchBlockStatementGroup => backwards p named
  | .localVariableDeclaration =>
    backwards p ((below.filter (·.1.field == some .declarator)).map fun (c, walk) => (c, walk.here))
  | .variableDeclarator | .formalParameter | .spreadParameter | .catchFormalParameter | .resource =>
    if ← offerDeclared p n (p.flags.vars && p.startsBefore n) then return true
    below.anyM (·.2.here)
  | .typeParameter => offerDeclared p n (p.flags.types && p.startsBefore n)
  | .classDeclaration | .interfaceDeclaration | .enumDeclaration | .recordDeclaration
  | .annotationTypeDeclaration =>
    -- a local type is offered after its end, and searched like a block before
    if p.flags.types && p.endsBefore n then SearchM.offer (p.bindingOf n)
    else if p.isInside n then below.anyM (·.2.here)
    else return false
  | .catchClause =>
    if p.isInside n then
      if ← atField below .body then return true
      (named.filter (·.1.kind == .catchFormalParameter)).anyM (·.2)
    else return false
  | .forStatement =>
    if p.isInside n then
      if ← atField below .body then return true
      backwards p ((below.filter (·.1.field == some .init)).map fun (c, walk) => (c, walk.here))
    else return false
  | .enhancedForStatement =>
    if p.isInside n then
      if ← atField below .body then return true
      if ← atField below .value then return true
      offerDeclared p n (p.flags.vars && (n.childByField .name).any p.startsBefore)
    else return false
  | .tryWithResourcesStatement =>
    -- the resources come last, also for the clauses after the body
    if p.isInside n then
      if ← (named.filter (·.1.kind != .resourceSpecification)).anyM (·.2) then return true
      backwardsBelow p (below.filter fun (c, _) =>
        c.isNamed && c.kind == .resourceSpecification).getLast?
    else return false
  | .lambdaExpression =>
    if p.isInside n then
      if ← atField below .body then return true
      match below.find? (·.1.field == some .parameters) with
      | some list => if p.flags.vars then lambdaParameters p list else return false
      | none => return false
    else return false
  | .switchLabel =>
    if p.flags.vars && p.isInside n then labelConstants typeOf n else return false
  | .fieldDeclaration | .constantDeclaration => return false
  | _ => if p.isInside n then below.anyM (·.2.here) else return false

/-- The walk at a node together with the walks below it. -/
def step (n : Node) (below : List (Node × LocalWalk σ)) : LocalWalk σ :=
  ⟨atNode typeOf p n below, (below.filter (·.1.isNamed)).map fun (c, walk) => (c, walk.here)⟩

/-- Offers the local declarations below a node that are in scope at a position; answers whether the
request stopped. -/
def run (n : Node) : SearchM σ Bool :=
  (n.fold (step typeOf p)).here

end LocalWalk

/-! ## The member around a node -/

/-- The member whose body holds a node: a method, an initializer, or none outside of them. -/
def Node.bodyDeclaration (n : Node) : Option Node :=
  match n.climb.find? fun m =>
      m.kind.isBodyDeclaration || m.isInitializerBlock || m.kind.isTypeDeclaration ||
        m.kind.isFieldDeclaration || m.kind == .enumConstant with
  | none => none
  | some m => if m.kind.isBodyDeclaration || m.isInitializerBlock then some m else none

/-- Offers the local declarations that are in scope at a position, in the member that holds a
node. -/
def collectLocal {σ : Type} [Request σ] (typeOf : Typing) (n : Node) (position : Nat)
    (flags : Flags) : SearchM σ Bool := do
  if flags.vars || flags.types then
    match n.bodyDeclaration with
    | none => return false
    | some declaration =>
      let e := (← get).environment
      LocalWalk.run typeOf ⟨e.context.unit, e.bindingOf, position, flags⟩ declaration
  else return false

end JavaScope
