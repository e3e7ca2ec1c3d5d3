import JavaScope.Binding.Store

/-!
# Visibility

Whether a declaration can be accessed from a type, by its modifiers and by how the declaring type
and the accessing type lie to each other.
-/

namespace JavaScope

namespace Store

/-- The type whose members include a binding; a top-level type stands for itself. -/
def declaringTypeOf (s : Store) (b : BindingId) : Option TypeId :=
  match b with
  | .type t => some ((s.type t).declaringClass.getD t)
  | b => s.declaringClass b

/-- `sup` is the type or one of its supertypes, up to `fuel` steps away. -/
def isSupertypeWith (s : Store) (sup : TypeId) : Nat → TypeId → Except Fault Bool
  | fuel, t =>
    if t = sup then return true
    else match fuel with
      | 0 => .error .endless
      | fuel + 1 => do
        let found ← match (s.type t).superclass with
          | some up => s.isSupertypeWith sup fuel (s.declarationOfType up)
          | none => pure false
        if found then return true
        if s.isInterface sup then
          (s.type t).interfaces.anyM fun each => do
            s.isSupertypeWith sup fuel (s.declarationOfType (← needed each))
        else return false

/-- `sup` is the type or one of its supertypes; a missing type has none. -/
def isSupertype (s : Store) (sup : TypeId) (t : Option TypeId) : Except Fault Bool :=
  match t with
  | some t => s.isSupertypeWith sup (s.types.size + 1) t
  | none => return false

/-- The type or one that encloses it is `declaring` or, if the hierarchy counts, a subtype of it. -/
def isEnclosedWith (s : Store) (declaring : TypeId) (hierarchy : Bool) :
    Nat → Option TypeId → Except Fault Bool
  | _, none => return false
  | fuel, some current =>
    if current = declaring then return true
    else match fuel with
      | 0 => .error .endless
      | fuel + 1 => do
        let inherits ← if hierarchy then s.isSupertype declaring (some current) else pure false
        if inherits then return true
        s.isEnclosedWith declaring hierarchy fuel (s.type current).declaringClass

/-- The type `context` is `declaring` or nested in it or, if the hierarchy counts, it or one of its
enclosing types is a subtype of `declaring`. -/
def isTypeInScope (s : Store) (declaring context : TypeId) (hierarchy : Bool) :
    Except Fault Bool :=
  s.isEnclosedWith declaring hierarchy (s.types.size + 1) (some (s.declarationOfType context))

/-- The binding can be accessed from the type `context`. Variables other than fields always can. -/
def isVisible (s : Store) (b : BindingId) (context : Option TypeId) : Except Fault Bool :=
  let b := s.declarationOf b
  if b.variableId?.any fun v => !(s.variable v).isField then return true
  else match s.declaringTypeOf b with
    | none => return false
    | some owner =>
      let declaring := s.declarationOfType owner
      let modifiers := s.modifiers b
      if modifiers.isPublic || s.isInterface declaring then return true
      else match context with
        | none => return false
        | some context =>
          if modifiers.isProtected || !modifiers.isPrivate then
            if (s.type declaring).package == (s.type (s.declarationOfType context)).package then
              return true
            else s.isTypeInScope declaring context modifiers.isProtected
          else s.isTypeInScope declaring context false

end Store

end JavaScope
