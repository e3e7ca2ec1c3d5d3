import JavaScope.Binding.Store

/-!
# Keys and signatures

The texts that tell bindings apart. A key names a binding within its unit; an erasure names a type
without its arguments; a signature joins the kind and the name of a binding, and for a method the
erasures of its parameter types. Chains of bindings are followed as far as the store has bindings,
so a fault tells of a chain that never ends.
-/

namespace JavaScope

/-- The qualified name of the type above all others. -/
def objectName : String := "java.lang.Object"

/-- Pairs of brackets, as many as there are dimensions. -/
def brackets (dimensions : Int) : String :=
  String.join (List.replicate dimensions.toNat "[]")

/-- A qualified name with slashes in place of its dots. -/
def slashed (name : String) : String :=
  String.ofList (name.toList.map fun c => if c == '.' then '/' else c)

namespace Store

/-- The erasure of a type, along chains of at most `fuel` types. -/
def erasureWith (s : Store) : Nat → TypeId → Except Fault String
  | 0, _ => .error .endless
  | fuel + 1, t => do
    let b := s.type t
    match b.kind with
    | .typeParameter | .wildcard =>
      match b.bounds with
      | [] => return objectName
      | bound :: _ => s.erasureWith fuel (← needed bound)
    | .array =>
      return (← s.erasureWith fuel (← needed b.elementType)) ++ brackets b.dimensions
    | _ =>
      match b.genericType with
      | some generic => s.erasureWith fuel generic
      | none => return b.fullName

/-- The qualified name of a type's erasure: of a type variable its first bound's, of a generic type
with arguments the generic type's. -/
def erasure (s : Store) (t : TypeId) : Except Fault String :=
  s.erasureWith (s.size + 1) t

/-- The key of a binding, along chains of at most `fuel` bindings. -/
def keyWith (s : Store) : Nat → BindingId → Except Fault String
  | 0, _ => .error .endless
  | fuel + 1, .type t => do
    let b := s.type t
    let ownerKey : Unit → Except Fault String := fun _ =>
      match b.declaringMethod, b.declaringClass with
      | some m, _ => s.keyWith fuel (.method m)
      | none, some c => s.keyWith fuel (.type c)
      | none, none => return ""
    if b.kind == .primitive || b.kind == .wildcard then
      return b.name
    else if b.kind == .array then
      return (← s.keyWith fuel (.type (← needed b.elementType))) ++ brackets b.dimensions
    else match b.genericType with
      | some generic =>
        let arguments ← b.typeArguments.mapM fun each => do s.keyWith fuel (.type (← needed each))
        let base ← s.keyWith fuel (.type generic)
        return base ++ "<" ++ String.intercalate "," arguments ++ ">"
      | none =>
        if b.isTypeVariable then
          return (← ownerKey ()) ++ ":T" ++ b.name
        else if b.isLocal || b.isAnonymous then
          return (← ownerKey ()) ++ "$" ++ b.name ++ "@" ++ toString b.offset
        else
          return "L" ++ slashed b.fullName ++ ";"
  | fuel + 1, .variable v => do
    let b := s.variable v
    match b.isField, b.declaringClass, b.declaringMethod with
    | true, some c, _ => return (← s.keyWith fuel (.type c)) ++ "." ++ b.name
    | _, _, some m =>
      return (← s.keyWith fuel (.method m)) ++ "#" ++ b.name ++ "@" ++ toString b.offset
    | _, _, none => return "#" ++ b.name ++ "@" ++ toString b.offset
  | fuel + 1, .method m => do
    let b := s.method m
    let owner ← match b.declaringClass with
      | some c => s.keyWith fuel (.type c)
      | none => pure ""
    let parameters ← b.parameterTypes.mapM fun each => do s.keyWith fuel (.type (← needed each))
    return owner ++ "." ++ b.name ++ "(" ++ String.intercalate "," parameters ++ ")"

/-- The key of a binding. -/
def key (s : Store) (b : BindingId) : Except Fault String :=
  s.keyWith (s.size + 1) b

/-- The key of a type. -/
def typeKey (s : Store) (t : TypeId) : Except Fault String :=
  s.key (.type t)

/-- The short text of a binding. -/
def display (s : Store) : BindingId → Except Fault String
  | .type t =>
    let shown := (s.type t).fullName
    return "TypeBinding(" ++ (if shown.isEmpty then "<anonymous>" else shown) ++ ")"
  | .variable v => return "VariableBinding(" ++ (s.variable v).name ++ ")"
  | .method m => do
    let parameters ← (s.method m).parameterTypes.mapM fun each => do
      return (s.type (← needed each)).name
    return "MethodBinding(" ++ (s.method m).name ++ "(" ++
      String.intercalate ", " parameters ++ "))"

/-- The signature of a method: its name and the erasures of its parameter types. -/
def signatureOfMethod (s : Store) (m : MethodId) : Except Fault String := do
  let parameters ← (s.method m).parameterTypes.mapM fun each => do s.erasure (← needed each)
  return "M" ++ (s.method m).name ++ "(" ++ String.intercalate "," parameters ++ ")"

/-- The signature of a binding that has to be a method. -/
def methodSignature (s : Store) : BindingId → Except Fault String
  | .method m => s.signatureOfMethod m
  | b => do throw (.notMethod (← s.display b))

/-- The signature of a binding. -/
def signature (s : Store) : BindingId → Except Fault String
  | .type t => return "T" ++ (s.type t).name
  | .variable v => return "V" ++ (s.variable v).name
  | .method m => s.signatureOfMethod m

end Store

end JavaScope
