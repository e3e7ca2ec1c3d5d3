import JavaScope.Scope.Members

/-!
# Names and expressions

What a name refers to, which method an invocation calls, and the static type of an expression. A
name is told from the declarations in scope, and these may depend on the type of another expression,
such as the one a `switch` is on. So every rule takes the typing of other expressions as a
parameter, and `expressionType` closes the circle.
-/

namespace JavaScope

open EnvironmentM

/-! ## Qualifiers and labels -/

/-- What a name is accessed through. -/
inductive Qualifier where
  /-- The name stands alone. -/
  | absent
  /-- The name is accessed through an expression without a known type. -/
  | unknown
  /-- The name is accessed through an expression of a type. -/
  | type (t : TypeId)
  deriving DecidableEq, Repr

namespace Node

/-- The node is the node in a field of its parent. -/
def isFieldOf (n parent : Node) (f : Field) : Bool :=
  (parent.childByField f).any (·.isSame n)

/-- The expression through which a name is accessed: the object of an invocation of that name or of
an access to that field. -/
def qualifierNode (n : Node) : Option Node := do
  let parent ← n.parent
  match parent.kind with
  | .methodInvocation => if n.isFieldOf parent .name then parent.childByField .object else none
  | .fieldAccess => if n.isFieldOf parent .field then parent.childByField .object else none
  | _ => none

/-- The node is the expression of a `case` label. -/
def isLabelName (n : Node) : Bool :=
  n.parent.any fun parent =>
    parent.kind == .switchLabel && parent.namedChildren.any (·.isSame n)

/-- The expression that the nearest `switch` around a node is on. -/
def switchCondition (n : Node) : Option Node :=
  (n.ancestorOfKinds [.switchExpression, .switchStatement]).bind (·.childByField .condition)

end Node

/-! ## Literals -/

/-- The types of literals that are not primitive. -/
def literalClass : Kind → Option String
  | .stringLiteral | .textBlock => some "java.lang.String"
  | _ => none

/-- The primitive types of literals. -/
def literalPrimitive : Kind → Option String
  | .characterLiteral => some "char"
  | .trueLiteral | .falseLiteral => some "boolean"
  | .decimalIntegerLiteral | .hexIntegerLiteral | .octalIntegerLiteral | .binaryIntegerLiteral =>
    some "int"
  | .decimalFloatingPointLiteral | .hexFloatingPointLiteral => some "double"
  | _ => none

namespace Scope

variable (typeOf : Typing)

/-! ## What a name is accessed through -/

/-- The type of an expression that may be missing. -/
def typeOf? (n : Option Node) : EnvironmentM (Option TypeId) :=
  match n with
  | some n => typeOf n
  | none => return none

/-- What a name is accessed through. -/
def qualifierOf (n : Option Node) : EnvironmentM Qualifier := do
  match n.bind Node.qualifierNode with
  | none => return .absent
  | some target =>
    match ← typeOf target with
    | some t => return .type t
    | none => return .unknown

/-- The enum that the `switch` around a `case` label is on. -/
def labelEnum (n : Node) : EnvironmentM (Option TypeId) := do
  if n.isLabelName then
    let t ← typeOf? typeOf n.switchCondition
    let s ← read Environment.store
    return t.filter s.isEnum
  else return none

/-! ## Declarations at a name -/

/-- Offers the declarations that a name alone may refer to, in the body of a type. -/
def collectAtName {σ : Type} [Request σ] (n : Node) (around : TypeId) (flags : Flags) :
    SearchM σ Bool := do
  let unit := (← get).environment.context.unit
  if ← collectLocal typeOf n (unit.charStart n) flags then return true
  collectTypes typeOf flags around

/-- The bindings that a search collects for a request. -/
def collected (request : Collection) (search : SearchM Collection Bool) :
    EnvironmentM (List BindingId) := do
  let (_, request) ← SearchM.start request search
  let s ← read Environment.store
  let (answer, _) := (Collection.requested s).run.run request
  ofExcept answer

/-- The declarations that are available at a name: at a label of a `switch` on an enum its
constants, after a qualifier the members of its type, and otherwise everything in scope. -/
def declarationsAtName (n : Node) (flags : Flags) : EnvironmentM (List BindingId) := do
  match ← labelEnum typeOf n with
  | some t => return ((← read Environment.store).enumConstants t).map .variable
  | none =>
    match (← get).enclosingType n with
    | none => return []
    | some around =>
      let request := Collection.new (some around) flags
      match ← qualifierOf typeOf (some n) with
      | .absent => collected request (collectAtName typeOf n around flags)
      | .type t => collected request (return (← collectInherited flags t []).1)
      | .unknown => collected request (return false)

/-! ## Invocations -/

/-- The method can be called under a name with a number of arguments. -/
def isCallable (name : String) (arity : Nat) (s : Store) (b : BindingId) : Bool :=
  b.methodId?.any fun m =>
    let method := s.method m
    method.name == name && !method.isConstructor &&
      (method.parameterTypes.length == arity || method.isVarargs)

/-- The first fitting member of a type, of its supertypes, and of the types that enclose it. -/
def findMemberOutwards (fits : Store → BindingId → Bool) :
    Nat → Option TypeId → EnvironmentM (Option BindingId)
  | _, none => return none
  | 0, some _ => throw .endless
  | fuel + 1, some t => do
    match ← findMember t fits with
    | some member => return some member
    | none =>
      let outer := ((← read Environment.store).type t).declaringClass
      findMemberOutwards fits fuel outer

/-- The method that an invocation calls, by its name and the number of its arguments. -/
def resolveMethod (invocation : Node) : EnvironmentM (Option MethodId) := do
  let name := (← read Environment.document).textOf? (invocation.childByField .name)
  let arity := ((invocation.childByField .arguments).map (·.namedChildren.length)).getD 0
  let found ← match ← qualifierOf typeOf (invocation.childByField .name) with
    | .unknown => pure none
    | .type t => findMember t (isCallable name arity)
    | .absent => do
      let e ← get
      findMemberOutwards (isCallable name arity) (e.store.types.size + 1)
        (e.enclosingType invocation)
  return found.bind BindingId.methodId?

/-! ## Names -/

/-- The type that a name stands for; a name that nothing declares stands for none. -/
def resolveAsType (n : Node) : EnvironmentM (Option BindingId) := do
  let t ← Environment.resolveTypeName ((← read Environment.document).textOf n) n
  let b := (← read Environment.store).type t
  if b.recovered && b.qualifiedName == b.name then return none else return some (.type t)

/-- The binding is a variable of a name. -/
def isVariableNamed (name : String) (s : Store) (b : BindingId) : Bool :=
  b.kind == .variable && s.name b == name

/-- What a name refers to. A declaration's name refers to the declaration, the name of an invocation
to the method, a name after a qualifier to a field of its type, and a name alone to a variable or
else a type in scope. -/
def resolve (n : Node) : EnvironmentM (Option BindingId) := do
  match (← get).bindingOf n with
  | some b => return some b
  | none =>
    let text := (← read Environment.document).textOf n
    match n.parent.filter fun parent =>
        parent.kind == .methodInvocation && n.isFieldOf parent .name with
    | some invocation => return (← resolveMethod typeOf invocation).map .method
    | none =>
      match ← qualifierOf typeOf (some n) with
      | .unknown => return none
      | .type t => findMember t (isVariableNamed text)
      | .absent =>
        let available ← declarationsAtName typeOf n .onlyVariables
        let s ← read Environment.store
        match available.find? fun b => s.name b == text with
        | some b => return some b
        | none => resolveAsType n

/-- What a name that may be missing refers to. -/
def resolve? (n : Option Node) : EnvironmentM (Option BindingId) :=
  match n with
  | some n => resolve typeOf n
  | none => return none

/-- The type of what a name refers to: of a variable its type, and of a type the type itself. -/
def typeOfName (n : Option Node) : EnvironmentM (Option TypeId) := do
  match ← resolve? typeOf n with
  | some (.variable v) => return ((← read Environment.store).variable v).type
  | some (.type t) => return some t
  | _ => return none

/-! ## Expressions -/

/-- The brackets in the dimensions of an array creation. -/
def createdDimensions (d : Document) (n : Node) : Nat :=
  (n.childrenByField .dimensions).foldl (fun total each => total + bracketCount (d.textOf each)) 0

/-- The static type of an expression, as far as the unit alone tells it. -/
def expressionStep (n : Node) : EnvironmentM (Option TypeId) := do
  match n.kind with
  | .parenthesizedExpression => typeOf? typeOf n.namedChildren.head?
  | .thisRef => return (← get).enclosingType n
  | .superRef =>
    let e ← get
    return (e.enclosingType n).bind fun t => (e.store.type t).superclass
  | .identifier => typeOfName typeOf (some n)
  | .fieldAccess => typeOfName typeOf (n.childByField .field)
  | .methodInvocation =>
    match ← resolveMethod typeOf n with
    | some m => return ((← read Environment.store).method m).returnType
    | none => return none
  | .objectCreationExpression | .castExpression =>
    Environment.resolveType? (n.childByField .type) n
  | .arrayCreationExpression =>
    let element ← Environment.resolveType? (n.childByField .type) n
    Environment.arrayOf element (createdDimensions (← read Environment.document) n)
  | .arrayAccess =>
    match ← typeOf? typeOf (n.childByField .array) with
    | none => return none
    | some t =>
      let b := (← read Environment.store).type t
      if b.isArray then Environment.arrayOf b.elementType (b.dimensions - 1) else return none
  | kind =>
    match literalClass kind, literalPrimitive kind with
    | some name, _ => return some (← Environment.recoveredType name)
    | none, some name => return some (← Environment.primitiveType name)
    | none, none => return none

/-- The type of an expression, along chains of at most `fuel` expressions. -/
def expressionTypeWith : Nat → Typing
  | 0, _ => throw .endless
  | fuel + 1, n => expressionStep (expressionTypeWith fuel) n

/-- The static type of an expression. No chain is longer than the tree has nodes. -/
def expressionType : Typing := fun n => do
  let nodes := (← read Environment.document).root.preorder
  expressionTypeWith (nodes.length + 1) n

end Scope

end JavaScope
