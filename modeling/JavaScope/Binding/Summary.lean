import JavaScope.Binding.Store

/-!
# Summaries of bindings

The properties that hold of a binding, by their names, and the binding that one of its links leads
to.
-/

namespace JavaScope

namespace BindingKind

/-- The name of what a binding stands for. -/
def name : BindingKind → String
  | type => "type"
  | «variable» => "variable"
  | method => "method"

end BindingKind

namespace Store

/-- The properties of a binding that its modifiers decide. -/
def accessProperties (s : Store) (b : BindingId) : List (String × Bool) :=
  let m := s.modifiers b
  [("is_public", m.isPublic), ("is_protected", m.isProtected), ("is_private", m.isPrivate),
    ("is_static", m.isStatic)]

/-- The properties of a type. -/
def typeProperties (s : Store) (t : TypeId) : List (String × Bool) :=
  let b := s.type t
  [("is_interface", s.isInterface t), ("is_enum", s.isEnum t),
    ("is_type_variable", b.isTypeVariable), ("is_primitive", b.isPrimitive),
    ("is_array", b.isArray), ("is_parameterized", b.isParameterized), ("is_member", b.isMember),
    ("is_local", b.isLocal), ("is_anonymous", b.isAnonymous), ("recovered", b.recovered)]

/-- The properties of a binding that depend on what it stands for. -/
def ownProperties (s : Store) : BindingId → List (String × Bool)
  | .type t => s.typeProperties t
  | .variable v =>
    let b := s.variable v
    [("is_field", b.isField), ("is_parameter", b.isParameter),
      ("is_enum_constant", b.isEnumConstant)]
  | .method m =>
    let b := s.method m
    [("is_constructor", b.isConstructor), ("is_varargs", b.isVarargs)]

/-- The names of the properties that hold of a binding, in alphabetic order. -/
def properties (s : Store) (b : BindingId) : List String :=
  (((s.accessProperties b ++ s.ownProperties b).filter (·.2)).map (·.1)).mergeSort
    fun x y => !(y < x)

/-- The types and the method that a binding is linked to, by the names of the links. -/
def links (s : Store) (b : BindingId) : List (String × Option BindingId) :=
  let owner := ("declaring_class", (s.declaringClass b).map .type)
  owner :: match b with
    | .type t =>
      let b := s.type t
      [("superclass", b.superclass.map .type), ("generic_type", b.genericType.map .type),
        ("element_type", b.elementType.map .type),
        ("declaring_method", b.declaringMethod.map .method)]
    | .variable v =>
      let b := s.variable v
      [("type", b.type.map .type), ("declaring_method", b.declaringMethod.map .method)]
    | .method m => [("return_type", (s.method m).returnType.map .type)]

/-- The bindings that a binding lists, by the names of the lists. -/
def lists (s : Store) : BindingId → List (String × List (Option BindingId))
  | .type t =>
    let b := s.type t
    let types := fun (ts : List TypeId) => ts.map fun t => some (BindingId.type t)
    let links := fun (ts : List (Option TypeId)) => ts.map fun t => t.map BindingId.type
    [("interfaces", links b.interfaces),
      ("declared_fields", b.declaredFields.map fun v => some (.variable v)),
      ("declared_methods", b.declaredMethods.map fun m => some (.method m)),
      ("declared_types", types b.declaredTypes), ("type_parameters", types b.typeParameters),
      ("type_arguments", links b.typeArguments), ("bounds", links b.bounds)]
  | .variable _ => []
  | .method m =>
    let b := s.method m
    [("parameter_types", b.parameterTypes.map fun t => t.map .type),
      ("type_parameters", b.typeParameters.map fun t => some (.type t))]

end Store

end JavaScope
