import JavaScope.Fault
import JavaScope.Tree.Node
import JavaScope.Binding.Modifiers

/-!
# Bindings and their store

The symbols of a unit: types, variables and methods. A binding is a reference into a store, and two
bindings are the same one exactly when their references are equal. The store only grows, and an
entry is changed in place.
-/

namespace JavaScope

/-! ## References -/

/-- A type of a store. -/
structure TypeId where
  index : Nat
  deriving DecidableEq, Repr

/-- A variable of a store. -/
structure VariableId where
  index : Nat
  deriving DecidableEq, Repr

/-- A method of a store. -/
structure MethodId where
  index : Nat
  deriving DecidableEq, Repr

/-- A binding of a store. -/
inductive BindingId where
  | type (t : TypeId)
  | variable (v : VariableId)
  | method (m : MethodId)
  deriving DecidableEq, Repr

/-- What a binding stands for. -/
inductive BindingKind where
  | type
  | variable
  | method
  deriving DecidableEq, Repr

/-! ## Entries -/

/-- What sort of type a type binding is. -/
inductive TypeKind where
  | classType
  | interfaceType
  | enumType
  | recordType
  | annotationType
  | typeParameter
  | primitive
  | array
  | parameterized
  | wildcard
  deriving DecidableEq, Repr

namespace TypeKind

/-- The name of a sort of type. -/
def name : TypeKind → String
  | classType => "class"
  | interfaceType => "interface"
  | enumType => "enum"
  | recordType => "record"
  | annotationType => "annotation"
  | typeParameter => "type_parameter"
  | primitive => "primitive"
  | array => "array"
  | parameterized => "parameterized"
  | wildcard => "wildcard"

/-- The sort of type with this name. -/
def ofName? (text : String) : Option TypeKind :=
  [classType, interfaceType, enumType, recordType, annotationType, typeParameter, primitive, array,
    parameterized, wildcard].find? fun kind => kind.name == text

end TypeKind

/-- A type. Types that an unfinished program leaves open are missing from the lists of types it
refers to. -/
structure TypeBinding where
  name : String := ""
  modifiers : Modifiers := .none
  node : Option Node := none
  offset : Int := -1
  qualifiedName : String := ""
  package : String := ""
  kind : TypeKind := .classType
  declaringClass : Option TypeId := none
  declaringMethod : Option MethodId := none
  superclass : Option TypeId := none
  interfaces : List (Option TypeId) := []
  declaredFields : List VariableId := []
  declaredMethods : List MethodId := []
  declaredTypes : List TypeId := []
  typeParameters : List TypeId := []
  typeArguments : List (Option TypeId) := []
  bounds : List (Option TypeId) := []
  genericType : Option TypeId := none
  elementType : Option TypeId := none
  dimensions : Int := 0
  isLocal : Bool := false
  isAnonymous : Bool := false
  recovered : Bool := false

/-- A field, an enum constant, a parameter or a local variable. -/
structure VariableBinding where
  name : String := ""
  modifiers : Modifiers := .none
  node : Option Node := none
  offset : Int := -1
  type : Option TypeId := none
  declaringClass : Option TypeId := none
  declaringMethod : Option MethodId := none
  isField : Bool := false
  isParameter : Bool := false
  isEnumConstant : Bool := false

/-- A method or a constructor. -/
structure MethodBinding where
  name : String := ""
  modifiers : Modifiers := .none
  node : Option Node := none
  offset : Int := -1
  declaringClass : Option TypeId := none
  returnType : Option TypeId := none
  parameterTypes : List (Option TypeId) := []
  parameterNames : List String := []
  typeParameters : List TypeId := []
  isConstructor : Bool := false
  isVarargs : Bool := false

namespace TypeBinding

/-- The qualified name, or the simple name where there is none. -/
def fullName (b : TypeBinding) : String :=
  if b.qualifiedName.isEmpty then b.name else b.qualifiedName

/-- A type parameter of a type or of a method. -/
def isTypeVariable (b : TypeBinding) : Bool := b.kind == .typeParameter

/-- A primitive type. -/
def isPrimitive (b : TypeBinding) : Bool := b.kind == .primitive

/-- An array type. -/
def isArray (b : TypeBinding) : Bool := b.kind == .array

/-- A generic type with its arguments. -/
def isParameterized (b : TypeBinding) : Bool := b.genericType.isSome

/-- A type declared in the body of another one. -/
def isMember (b : TypeBinding) : Bool := b.declaringClass.isSome && !b.isLocal

end TypeBinding

/-! ## The store -/

/-- All bindings that were made so far. -/
structure Store where
  types : Array TypeBinding := #[]
  vars : Array VariableBinding := #[]
  methods : Array MethodBinding := #[]

/-- The value of an optional link where one is needed. -/
def needed {α : Type} (link : Option α) : Except Fault α :=
  match link with
  | some a => .ok a
  | none => .error .missing

namespace Store

/-- A type of the store, or the type without any property. -/
def type (s : Store) (t : TypeId) : TypeBinding :=
  s.types.getD t.index {}

/-- A variable of the store, or the variable without any property. -/
def «variable» (s : Store) (v : VariableId) : VariableBinding :=
  s.vars.getD v.index {}

/-- A method of the store, or the method without any property. -/
def method (s : Store) (m : MethodId) : MethodBinding :=
  s.methods.getD m.index {}

/-- The number of bindings. -/
def size (s : Store) : Nat :=
  s.types.size + s.vars.size + s.methods.size

/-- The store with one more type, and that type. -/
def addType (s : Store) (b : TypeBinding) : TypeId × Store :=
  (⟨s.types.size⟩, { s with types := s.types.push b })

/-- The store with one more variable, and that variable. -/
def addVariable (s : Store) (b : VariableBinding) : VariableId × Store :=
  (⟨s.vars.size⟩, { s with vars := s.vars.push b })

/-- The store with one more method, and that method. -/
def addMethod (s : Store) (b : MethodBinding) : MethodId × Store :=
  (⟨s.methods.size⟩, { s with methods := s.methods.push b })

/-- The store with a changed type. -/
def modifyType (s : Store) (t : TypeId) (change : TypeBinding → TypeBinding) : Store :=
  { s with types := s.types.modify t.index change }

/-- The store with a changed variable. -/
def modifyVariable (s : Store) (v : VariableId) (change : VariableBinding → VariableBinding) :
    Store :=
  { s with vars := s.vars.modify v.index change }

/-- The store with a changed method. -/
def modifyMethod (s : Store) (m : MethodId) (change : MethodBinding → MethodBinding) : Store :=
  { s with methods := s.methods.modify m.index change }

/-! ## Properties of all bindings -/

/-- The declaration of a type: for a generic type with arguments the generic type, and otherwise
the type itself. -/
def declarationOfType (s : Store) (t : TypeId) : TypeId :=
  ((s.type t).genericType).getD t

/-- The declaration of a binding. -/
def declarationOf (s : Store) : BindingId → BindingId
  | .type t => .type (s.declarationOfType t)
  | b => b

/-- The simple name of a binding. -/
def name (s : Store) : BindingId → String
  | .type t => (s.type t).name
  | .variable v => (s.variable v).name
  | .method m => (s.method m).name

/-- The modifiers of a binding. -/
def modifiers (s : Store) : BindingId → Modifiers
  | .type t => (s.type t).modifiers
  | .variable v => (s.variable v).modifiers
  | .method m => (s.method m).modifiers

/-- The character offset of a binding's declaration, or -1. -/
def offset (s : Store) : BindingId → Int
  | .type t => (s.type t).offset
  | .variable v => (s.variable v).offset
  | .method m => (s.method m).offset

/-- The node that declares a binding. -/
def node (s : Store) : BindingId → Option Node
  | .type t => (s.type t).node
  | .variable v => (s.variable v).node
  | .method m => (s.method m).node

/-- The type that a binding belongs to. -/
def declaringClass (s : Store) : BindingId → Option TypeId
  | .type t => (s.type t).declaringClass
  | .variable v => (s.variable v).declaringClass
  | .method m => (s.method m).declaringClass

/-- The type is declared as an interface or an annotation type. -/
def isInterface (s : Store) (t : TypeId) : Bool :=
  match (s.type (s.declarationOfType t)).kind with
  | .interfaceType | .annotationType => true
  | _ => false

/-- The type is declared as an enum. -/
def isEnum (s : Store) (t : TypeId) : Bool :=
  (s.type (s.declarationOfType t)).kind == .enumType

/-- The enum constants that an enum type declares, in the order of the text. -/
def enumConstants (s : Store) (t : TypeId) : List VariableId :=
  (s.type (s.declarationOfType t)).declaredFields.filter fun v => (s.variable v).isEnumConstant

/-! ## Laws -/

@[simp] theorem type_addType_self (s : Store) (b : TypeBinding) :
    (s.addType b).2.type (s.addType b).1 = b := by
  simp [addType, type, Array.getD]

theorem type_addType_of_lt (s : Store) (b : TypeBinding) {t : TypeId}
    (h : t.index < s.types.size) : (s.addType b).2.type t = s.type t := by
  have : t.index < s.types.size + 1 := by omega
  simp [addType, type, Array.getD, h, this, Array.getElem_push]

end Store

namespace BindingId

/-! ## Kinds of references -/

/-- What a binding stands for. -/
def kind : BindingId → BindingKind
  | type _ => .type
  | «variable» _ => .variable
  | method _ => .method

/-- The type, where the binding is one. -/
def typeId? : BindingId → Option TypeId
  | type t => some t
  | _ => none

/-- The variable, where the binding is one. -/
def variableId? : BindingId → Option VariableId
  | «variable» v => some v
  | _ => none

/-- The method, where the binding is one. -/
def methodId? : BindingId → Option MethodId
  | method m => some m
  | _ => none

end BindingId

end JavaScope
