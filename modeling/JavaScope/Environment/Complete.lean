import JavaScope.Environment.Declare
import JavaScope.Environment.Resolve

/-!
# Complete environments

The second pass: the supertypes, the types of fields and variables, the return and parameter types
and the bounds of type parameters are resolved, in the order of the declarations. A method grows by
one parameter at a time, so a type that is made between two of its parameters is filed under the key
the method has at that time.
-/

namespace JavaScope

namespace Environment

open EnvironmentM

/-- The node of the type of a varargs parameter: the first one below it that is neither its
modifiers nor its declarator. -/
def varargsTypeNode (n : Node) : Option Node :=
  n.namedChildren.find? fun c => !(c.kind == .modifiers || c.kind == .variableDeclarator)

/-- The node of the declared type of a declaration. -/
def typeNodeOf (declaration : Node) : Option Node :=
  match declaration.kind with
  | .catchFormalParameter => (declaration.childOfKind .catchType).bind (·.namedChildren.head?)
  | .spreadParameter => varargsTypeNode declaration
  | _ => declaration.childByField .type

/-- The brackets after the name that a node declares. -/
def ownDimensions (d : Document) (n : Node) : Nat :=
  match n.kind with
  | .variableDeclarator | .formalParameter | .catchFormalParameter | .enhancedForStatement
  | .resource => bracketCount (d.textOf? (n.childByField .dimensions))
  | _ => 0

/-- The node that spells the type of a variable: the declaration of a declarator, and otherwise the
node itself. -/
def declarationNode (n : Node) : Option Node :=
  if n.kind == .variableDeclarator then n.parent else some n

/-- The dimensions that a variable has besides those of its type node. -/
def extraDimensions (d : Document) (n declaration : Node) : Nat :=
  ownDimensions d n + if declaration.kind == .spreadParameter then 1 else 0

/-- The declared type of a variable. -/
def variableType (n : Node) : EnvironmentM (Option TypeId) := do
  let d ← read document
  let declaration ← ofExcept (needed (declarationNode n))
  let base ← resolveType? (typeNodeOf declaration) declaration
  arrayOf base (extraDimensions d n declaration)

/-- Completes a type parameter: its bounds. -/
def completeTypeParameter (t : TypeId) (n : Node) : EnvironmentM Unit :=
  match n.childOfKind .typeBound with
  | some bound => do
    let bounds ← bound.namedChildren.mapM fun each => resolveType each n
    modifyType t fun b => { b with bounds := bounds }
  | none => return

/-- The superclass that a type has unless its declaration names one. -/
def impliedSuperclass (b : TypeBinding) : EnvironmentM (Option TypeId) := do
  match b.kind with
  | .classType => if b.qualifiedName == objectName then return none else return some (← objectType)
  | .enumType => return some (← recoveredType "java.lang.Enum")
  | .recordType => return some (← recoveredType "java.lang.Record")
  | _ => return none

/-- The nodes of the interfaces that one clause of a type's header lists. -/
def listedInterfaces (n : Node) (clause : Kind) : List Node :=
  match (n.childOfKind clause).bind (·.childOfKind .typeList) with
  | some list => list.namedChildren
  | none => []

/-- Completes a named type: its superclass and its interfaces. -/
def completeNamedType (t : TypeId) (n : Node) : EnvironmentM Unit := do
  let superclass ← match (n.childOfKind .superclass).bind (·.namedChildren.head?) with
    | some named => resolveType named n
    | none => impliedSuperclass ((← read store).type t)
  modifyType t fun b => { b with superclass := superclass }
  (listedInterfaces n .superInterfaces ++ listedInterfaces n .extendsInterfaces).forM fun each => do
    let up ← resolveType each n
    modifyType t fun b => { b with interfaces := b.interfaces ++ [up] }

/-- Completes an anonymous class: it extends its enum, or extends or implements the type of its
creation. -/
def completeAnonymous (t : TypeId) (body : Node) : EnvironmentM Unit := do
  let creation ← ofExcept (needed body.parent)
  if creation.kind == .enumConstant then
    modifyType t fun b => { b with superclass := b.declaringClass }
  else match ← resolveType? (creation.childByField .type) creation with
    | none =>
      let object ← objectType
      modifyType t fun b => { b with superclass := some object }
    | some up =>
      if (← read store).isInterface up then
        let object ← objectType
        modifyType t fun b =>
          { b with superclass := some object, interfaces := b.interfaces ++ [some up] }
      else modifyType t fun b => { b with superclass := some up }

/-- Completes a method by one parameter. -/
def completeParameter (m : MethodId) (n : Node) : EnvironmentM Unit := do
  let type ← variableType n
  let name := (← read document).textOf? n.nameNode
  modifyMethod m fun b => { b with
    parameterTypes := b.parameterTypes ++ [type]
    parameterNames := b.parameterNames ++ [name]
    isVarargs := b.isVarargs || n.kind == .spreadParameter }

/-- Completes a method: its return type and its parameters. -/
def completeMethod (m : MethodId) (n : Node) : EnvironmentM Unit := do
  let returnType ← if ((← read store).method m).isConstructor then some <$> primitiveType "void"
    else resolveType? (n.childByField .type) n
  modifyMethod m fun b => { b with returnType := returnType }
  match n.childByField .parameters with
  | some list =>
    (list.namedChildren.filter fun each => each.kind.isMethodParameter).forM (completeParameter m)
  | none => return

/-- Completes a declaration. -/
def complete (b : BindingId) (n : Node) : EnvironmentM Unit := do
  match b with
  | .type t =>
    let type := (← read store).type t
    if type.isTypeVariable then completeTypeParameter t n
    else if type.isAnonymous then completeAnonymous t n
    else completeNamedType t n
  | .method m => completeMethod m n
  | .variable v =>
    let type ← variableType n
    modifyVariable v fun b => { b with type := type }

/-- The environment of a bound context. -/
def build (c : Context) : Except Fault Environment := do
  let draft ← declared c
  let (outcome, e) :=
    (draft.pending.forM fun (b, n) => complete b n).run.run draft.toEnvironment
  outcome.map fun _ => e

end Environment

end JavaScope
