import JavaScope.Scope.Expression
import JavaScope.Text.Uppercase

/-!
# Later declarations and uses

What is declared or used after a position of a block: local variables and types, the methods that
are invoked, the names that are returned, and the classes that qualify a constant. The bodies of
anonymous classes are left out.
-/

namespace JavaScope

namespace Scope

/-! ## The search -/

/-- Offers what the first action resolves, if this is asked for. -/
def offerResolved {σ : Type} [Request σ] (asked : Bool)
    (resolved : EnvironmentM (Option BindingId)) : SearchM σ Bool := do
  if asked then SearchM.offer (← SearchM.lift resolved) else return false

/-- The method that an invocation calls, as a binding. -/
def invoked (typeOf : Typing) (n : Node) : EnvironmentM (Option BindingId) := do
  return (← resolveMethod typeOf n).map .method

/-- The qualifier of a field access whose member begins with a capital letter. -/
def capitalQualifier (d : Document) (value : Option Node) : Option Node :=
  match value.filter fun v => v.kind == .fieldAccess with
  | none => none
  | some access =>
    if (d.textOf? (access.childByField .field)).toList.head?.any Text.isUppercase then
      access.childByField .object
    else none

/-- Looks at a node: offers what it declares or uses after the position, and says whether to go on
below it. -/
def lookLater {σ : Type} [Request σ] (typeOf : Typing) (p : ScopePoint) (d : Document)
    (n : Node) : SearchM σ Node.Step := do
  let after := p.position < p.unit.charStart n
  let vars := after && p.flags.vars
  let methods := after && p.flags.methods
  let types := after && p.flags.types
  let declared : Bool → SearchM σ Bool := fun asked =>
    offerResolved asked (return p.bindingOf n)
  let skipping : SearchM σ Bool → SearchM σ Node.Step := fun search => do
    return if ← search then .stop else .skip
  if !n.isNamed then return .skip
  match n.kind with
  | .variableDeclarator => skipping do
    match capitalQualifier d (n.childByField .value) with
    | some qualifier =>
      if ← offerResolved types (resolve typeOf qualifier) then return true
      declared vars
    | none => declared vars
  | .formalParameter | .catchFormalParameter | .resource => skipping (declared vars)
  | .enhancedForStatement => return if ← declared vars then .stop else .enter
  | .methodInvocation => skipping (offerResolved methods (invoked typeOf n))
  | .returnStatement => skipping do
    match n.namedChildren.head? with
    | none => return false
    | some value =>
      if vars then
        offerResolved (value.kind == .identifier) (resolve typeOf value)
      else
        offerResolved (methods && value.kind == .methodInvocation) (invoked typeOf value)
  | .classDeclaration | .interfaceDeclaration | .enumDeclaration | .recordDeclaration
  | .annotationTypeDeclaration => skipping (declared types)
  | .classBody => return if (p.bindingOf n).isSome then .skip else .enter
  | _ => return .enter

end Scope

namespace Node

/-! ## The block -/

/-- The nearest statement that holds a node or is the node, within the member that holds it. -/
def statementAround (n : Node) : Option Node :=
  if n.kind.isStatement then some n
  else match n.above.find? fun m => m.kind.isMemberDeclaration || m.kind.isStatement with
    | some m => if m.kind.isMemberDeclaration then none else some m
    | none => none

/-- The nearest block that holds a statement or is the statement, with nothing but statements on
the way. -/
def blockAround (n : Node) : Option Node :=
  match n.climb.find? fun m => !m.kind.isStatement || m.kind.isBlock with
  | some m => if m.kind.isBlock then some m else none
  | none => none

/-- The block in which later declarations count for a node: the one around its statement or, unless
only that one is asked for, the first block directly below it. -/
def laterBlock (n : Node) (onlyAround : Bool) : Option Node :=
  match n.statementAround with
  | some statement => statement.blockAround
  | none => if onlyAround then none else n.children.find? (·.kind.isBlock)

end Node

namespace Scope

/-- What is declared or used after the start of a node, in the block around it. -/
def declarationsAfter (typeOf : Typing) (n : Node) (flags : Flags) (onlyAround : Bool) :
    EnvironmentM (List BindingId) := do
  match n.laterBlock onlyAround with
  | none => return []
  | some block =>
    let e ← get
    let unit := e.context.unit
    collected (.new none .none)
      (block.search (lookLater typeOf ⟨unit, e.bindingOf, unit.charStart n, flags⟩ e.document))

end Scope

end JavaScope
