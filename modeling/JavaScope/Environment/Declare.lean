import JavaScope.Environment.Basic

/-!
# Declarations of a unit

The first pass over a tree: every declaration gets a binding, which is filed under the node that
names it and linked to the type and the method it belongs to. What a declaration refers to is left
to the second pass, in the order of the declarations.
-/

namespace JavaScope

/-! ## Drafts -/

/-- An environment under construction, with the declarations that wait for the second pass. -/
structure Draft extends Environment where
  pending : List (BindingId × Node)

/-- An action on an environment under construction. -/
abbrev DeclareM := ExceptT Fault (StateM Draft)

/-- What encloses a node in the first pass: the type, the method, and whether the node is code. -/
structure Surroundings where
  owner : Option TypeId
  method : Option MethodId
  inBody : Bool

namespace Draft

/-- The store with which a draft goes on. -/
def withStore (d : Draft) (store : Store) : Draft :=
  { d with store := store }

/-- Files a binding under a node. -/
def register (n : Node) (b : BindingId) : DeclareM Unit :=
  modify fun d => { d with declarations := putEntry n.key b d.declarations }

/-- Keeps a declaration for the second pass. -/
def postpone (b : BindingId) (n : Node) : DeclareM Unit :=
  modify fun d => { d with pending := d.pending ++ [(b, n)] }

/-- Adds a type to the store. -/
def addType (b : TypeBinding) : DeclareM TypeId :=
  modifyGet fun d => ((d.store.addType b).1, d.withStore (d.store.addType b).2)

/-- Adds a variable to the store. -/
def addVariable (b : VariableBinding) : DeclareM VariableId :=
  modifyGet fun d => ((d.store.addVariable b).1, d.withStore (d.store.addVariable b).2)

/-- Adds a method to the store. -/
def addMethod (b : MethodBinding) : DeclareM MethodId :=
  modifyGet fun d => ((d.store.addMethod b).1, d.withStore (d.store.addMethod b).2)

/-- Changes the type that encloses a declaration, if there is one. -/
def modifyOwner (owner : Option TypeId) (change : TypeBinding → TypeBinding) : DeclareM Unit :=
  match owner with
  | some t => modify fun d => d.withStore (d.store.modifyType t change)
  | none => return

/-- The type that encloses a declaration is an interface. -/
def ownerIsInterface (owner : Option TypeId) : DeclareM Bool := do
  let d ← get
  return owner.any d.store.isInterface

/-- The first character of a node that must be there. -/
def charStart (n : Option Node) : DeclareM Nat := do
  return (← get).context.unit.charStart (← ofExcept (needed n))

/-! ## Types -/

/-- The sort of type that a declaration declares. -/
def typeKindOf : Kind → TypeKind
  | .interfaceDeclaration => .interfaceType
  | .enumDeclaration => .enumType
  | .recordDeclaration => .recordType
  | .annotationTypeDeclaration => .annotationType
  | _ => .classType

/-- The qualified name of a type: a local type has its simple name, a member type that of its owner
in front, and a top-level type the package. -/
def qualifiedName (d : Draft) (around : Surroundings) (name : String) : String :=
  let outer := match around.inBody, around.owner with
    | true, _ => ""
    | false, some t => (d.store.type t).qualifiedName
    | false, none => d.package
  if outer.isEmpty then name else outer ++ "." ++ name

/-- Declares a named type. -/
def declareType (n : Node) (around : Surroundings) : DeclareM TypeId := do
  let d ← get
  let name := d.document.declaredName n
  let implied : Modifiers :=
    if (← ownerIsInterface around.owner) && !around.inBody then .public ∪ .static else .none
  let t ← addType {
    name := name
    qualifiedName := d.qualifiedName around name
    package := d.package
    kind := typeKindOf n.kind
    modifiers := .ofKeywords n.modifierKeywords ∪ implied
    declaringClass := around.owner
    declaringMethod := if around.inBody then around.method else none
    isLocal := around.inBody
    node := some n
    offset := d.context.unit.charStart n }
  if !around.inBody then
    modifyOwner around.owner fun o => { o with declaredTypes := o.declaredTypes ++ [t] }
  if around.owner.isNone then
    modify fun d => { d with types := d.types ++ [t] }
  register n (.type t)
  postpone (.type t) n
  return t

/-- Declares the anonymous class of a class body. -/
def declareAnonymous (n : Node) (around : Surroundings) : DeclareM TypeId := do
  let d ← get
  let t ← addType {
    package := d.package
    declaringClass := around.owner
    declaringMethod := around.method
    isLocal := true
    isAnonymous := true
    node := some n
    offset := d.context.unit.charStart n }
  register n (.type t)
  postpone (.type t) n
  return t

/-- Declares one type parameter. -/
def declareTypeParameter (n : Node) (owner : Option TypeId) (method : Option MethodId) :
    DeclareM Unit := do
  let d ← get
  let name := d.document.declaredName n
  let t ← addType {
    name := name
    qualifiedName := name
    package := d.package
    kind := .typeParameter
    declaringClass := if method.isNone then owner else none
    declaringMethod := method
    node := some n
    offset := d.context.unit.charStart n }
  match method with
  | some m => modify fun d => d.withStore <| d.store.modifyMethod m fun o =>
      { o with typeParameters := o.typeParameters ++ [t] }
  | none => modifyOwner owner fun o => { o with typeParameters := o.typeParameters ++ [t] }
  register n (.type t)
  postpone (.type t) n

/-- Declares the type parameters of a declaration. -/
def declareTypeParameters (n : Node) (owner : Option TypeId) (method : Option MethodId) :
    DeclareM Unit :=
  match n.childOfKind .typeParameters with
  | some list =>
    (list.namedChildren.filter fun each => each.kind == .typeParameter).forM fun each =>
      declareTypeParameter each owner method
  | none => return

/-! ## Methods -/

/-- Declares a method or a constructor. -/
def declareMethod (n : Node) (owner : Option TypeId) : DeclareM MethodId := do
  let d ← get
  -- a method of an interface is public unless it says otherwise, and abstract without a body
  let written := Modifiers.ofKeywords n.modifierKeywords
  let implied : Modifiers :=
    if (← ownerIsInterface owner) && !written.isPrivate then
      if (n.childByField .body).isNone then .public ∪ .abstract else .public
    else .none
  let m ← addMethod {
    name := d.document.declaredName n
    modifiers := written ∪ implied
    declaringClass := owner
    isConstructor := n.kind != .methodDeclaration
    node := some n
    offset := d.context.unit.charStart n }
  modifyOwner owner fun o => { o with declaredMethods := o.declaredMethods ++ [m] }
  register n (.method m)
  postpone (.method m) n
  return m

/-! ## Fields and constants -/

/-- Declares a variable of a type under the name that `named` spells, and links it to the type. -/
def declareMember (named n : Node) (owner : Option TypeId) (b : VariableBinding) :
    DeclareM VariableId := do
  let d ← get
  let start ← charStart named.nameNode
  let v ← addVariable { b with
    name := d.document.declaredName named
    declaringClass := owner
    isField := true
    node := some n
    offset := start }
  modifyOwner owner fun o => { o with declaredFields := o.declaredFields ++ [v] }
  register (← ofExcept (needed named.nameNode)) (.variable v)
  return v

/-- Declares a field or the constant of an interface. -/
def declareField (declaration n : Node) (owner : Option TypeId) : DeclareM Unit := do
  let implied : Modifiers :=
    if declaration.kind == .constantDeclaration || (← ownerIsInterface owner) then
      .public ∪ .static ∪ .final
    else .none
  let v ← declareMember n n owner {
    modifiers := .ofKeywords declaration.modifierKeywords ∪ implied }
  postpone (.variable v) n

/-- Declares an enum constant, whose type is its enum. -/
def declareEnumConstant (n : Node) (owner : Option TypeId) : DeclareM Unit := do
  let _ ← declareMember n n owner {
    modifiers := .public ∪ .static ∪ .final
    type := owner
    isEnumConstant := true }

/-- Declares the fields that the header of a record lists. -/
def declareRecordComponents (n : Node) (owner : TypeId) : DeclareM Unit :=
  match n.childByField .parameters with
  | some list => (list.namedChildren.filter fun each => each.kind == .formalParameter).forM
      fun each => do
        let v ← declareMember each each (some owner) { modifiers := .private ∪ .final }
        postpone (.variable v) each
  | none => return

/-! ## Parameters and locals -/

/-- Declares a parameter or a local variable; a node without a name declares none. -/
def declareVariable (n : Node) (method : Option MethodId) (isParameter : Bool) :
    DeclareM Unit :=
  match n.nameNode with
  | none => return
  | some name => do
    let d ← get
    let v ← addVariable {
      name := d.document.textOf name
      modifiers := .ofKeywords n.modifierKeywords
      declaringMethod := method
      isParameter := isParameter
      node := some n
      offset := d.context.unit.charStart name }
    register name (.variable v)
    postpone (.variable v) n

/-- Declares a lambda parameter that is a name alone. -/
def declareInferredParameter (name : Node) (method : Option MethodId) : DeclareM Unit := do
  let d ← get
  let v ← addVariable {
    name := d.document.textOf name
    declaringMethod := method
    isParameter := true
    node := some name
    offset := d.context.unit.charStart name }
  register name (.variable v)

/-- The names alone among the parameters of a lambda expression. -/
def inferredParameters (n : Node) : List Node :=
  match n.childByField .parameters with
  | none => []
  | some list =>
    if list.kind == .identifier then [list]
    else list.namedChildren.filter fun each => each.kind == .identifier

/-- The node is a typed parameter of a lambda expression. -/
def isLambdaParameter (n : Node) : Bool :=
  n.kind == .formalParameter && n.parent.any fun list =>
    list.kind == .formalParameters && list.parent.any fun lambda =>
      lambda.kind == .lambdaExpression

/-- Declares the variable of a node in a method, or the names alone of a lambda expression. -/
def declareInMethod (n : Node) (method : Option MethodId) : DeclareM Unit :=
  match n.kind with
  | .variableDeclarator =>
    if n.parent.any fun up => up.kind == .localVariableDeclaration then
      declareVariable n method false
    else return
  | .catchFormalParameter | .enhancedForStatement | .resource => declareVariable n method false
  | .formalParameter => if isLambdaParameter n then declareVariable n method true else return
  | .lambdaExpression => (inferredParameters n).forM (declareInferredParameter · method)
  | _ => return

/-! ## The pass over a tree -/

/-- What the first pass does at a node, below it, and below each of the named nodes below it. -/
structure Pass where
  here : Surroundings → DeclareM Unit
  inside : Surroundings → DeclareM Unit
  parts : List (Node × (Surroundings → DeclareM Unit))

/-- What the first pass does below the first node with a field. -/
def insideField (below : List (Node × Pass)) (f : Field) (around : Surroundings) :
    DeclareM Unit :=
  match below.find? fun (c, _) => c.field == some f with
  | some (_, pass) => pass.inside around
  | none => return

/-- Declares the parameters of a method, and what stands in them. -/
def declareParameters (below : List (Node × Pass)) (m : MethodId) (around : Surroundings) :
    DeclareM Unit :=
  match below.find? fun (c, _) => c.field == some .parameters with
  | some (_, pass) => pass.parts.forM fun (each, inside) => do
      if each.kind.isMethodParameter then declareVariable each (some m) true
      inside around
  | none => return

/-- What the first pass does at one node, from what it does below. -/
def passStep (n : Node) (below : List (Node × Pass)) : Pass :=
  let named := below.filter (·.1.isNamed)
  let inside := fun around => named.forM fun (_, pass) => pass.here around
  { inside := inside
    parts := named.map fun (c, pass) => (c, pass.inside)
    here := fun around => do
      if n.kind.isTypeDeclaration then
        let t ← declareType n around
        declareTypeParameters n (some t) none
        if n.kind == .recordDeclaration then declareRecordComponents n t
        insideField below .body ⟨some t, none, false⟩
      else if n.isAnonymousBody then
        let t ← declareAnonymous n around
        inside ⟨some t, none, false⟩
      else if n.kind.isMethodDeclaration then
        let m ← declareMethod n around.owner
        declareTypeParameters n around.owner (some m)
        declareParameters below m ⟨around.owner, some m, true⟩
        insideField below .body ⟨around.owner, some m, true⟩
      else if n.kind.isFieldDeclaration then
        (below.filter fun (c, _) => c.field == some .declarator).forM fun (c, pass) => do
          declareField n c around.owner
          pass.inside ⟨around.owner, none, true⟩
      else if n.kind == .enumConstant then
        declareEnumConstant n around.owner
        inside ⟨around.owner, around.method, true⟩
      else if n.kind == .staticInitializer || n.isInitializerBlock then
        inside ⟨around.owner, none, true⟩
      else
        declareInMethod n around.method
        inside around }

/-- Declares everything below a node. -/
def declareBelow (n : Node) (around : Surroundings) : DeclareM Unit :=
  (n.fold passStep).inside around

end Draft

namespace Environment

/-! ## The header of a file -/

/-- The name in a package or import declaration. -/
def headerName (d : Document) (n : Node) : String :=
  d.textOf? ((n.childOfKind .scopedIdentifier).or (n.childOfKind .identifier))

/-- The environment with one part of the file's header. -/
def readHeaderPart (e : Environment) (n : Node) : Environment :=
  match n.kind with
  | .packageDeclaration => { e with package := headerName e.document n }
  | .importDeclaration =>
    { e with imports := e.imports ++ [{
        name := headerName e.document n
        isStatic := n.children.any fun c => c.kind.name == "static"
        isOnDemand := n.children.any fun c => c.kind == .asterisk }] }
  | _ => e

/-- The environment with the package and the imports of the file. -/
def readHeader (e : Environment) : Environment :=
  e.document.root.children.foldl readHeaderPart e

/-- The environment with all declarations, and those that wait for the second pass. -/
def declared (c : Context) : Except Fault Draft :=
  let start : Draft := { readHeader (empty c) with pending := [] }
  let (outcome, draft) :=
    (Draft.declareBelow start.document.root ⟨none, none, false⟩).run.run start
  outcome.map fun _ => draft

end Environment

end JavaScope
