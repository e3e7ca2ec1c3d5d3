import JavaScope.Environment.Complete
import JavaScope.Proofs.Environment.Declared
import JavaScope.Proofs.Environment.Growth

/-!
# What the second pass leaves as it is

The second pass fills in supertypes, bounds, and the types of variables and methods. Everything else
that the first pass wrote down, the outline of the unit, stays.
-/

namespace JavaScope

/-! ## Outlines -/

/-- A type without what the second pass fills in. -/
def TypeBinding.outline (b : TypeBinding) : TypeBinding :=
  { b with superclass := none, interfaces := [], bounds := [] }

/-- A variable without what the second pass fills in. -/
def VariableBinding.outline (b : VariableBinding) : VariableBinding :=
  { b with type := none }

/-- A method without what the second pass fills in. -/
def MethodBinding.outline (b : MethodBinding) : MethodBinding :=
  { b with returnType := none, parameterTypes := [], parameterNames := [], isVarargs := false }

theorem TypeBinding.IsBare.of_outline_eq {b b' : TypeBinding} (h : b.IsBare)
    (same : b'.outline = b.outline) : b'.IsBare where
  fields := (congrArg declaredFields same).trans h.fields
  methods := (congrArg declaredMethods same).trans h.methods
  types := (congrArg declaredTypes same).trans h.types
  parameters := (congrArg typeParameters same).trans h.parameters
  arguments generic := by
    have sameGeneric : b'.genericType = b.genericType := (congrArg genericType same :)
    have sameArguments : b'.typeArguments = b.typeArguments := (congrArg typeArguments same :)
    rw [sameArguments]
    exact h.arguments (sameGeneric ▸ generic)
  owner generic := by
    have sameGeneric : b'.genericType = b.genericType := (congrArg genericType same :)
    exact (congrArg declaringClass same :).trans (h.owner (sameGeneric ▸ generic))

/-- The second store has more types, which declare nothing, and the outline of the first one. -/
structure Store.Outlines (s s' : Store) : Prop where
  vars : s'.vars.size = s.vars.size
  methods : s'.methods.size = s.methods.size
  size : s.types.size ≤ s'.types.size
  type : ∀ t : TypeId, t.index < s.types.size → (s'.type t).outline = (s.type t).outline
  bare : ∀ t : TypeId, s.types.size ≤ t.index → (s'.type t).IsBare
  variable_eq : ∀ v, (s'.variable v).outline = (s.variable v).outline
  method_eq : ∀ m, (s'.method m).outline = (s.method m).outline

/-- The second environment has the outline of the first one. -/
structure Environment.Outlines (e e' : Environment) : Prop where
  context : e'.context = e.context
  types : e'.types = e.types
  declarations : e'.declarations = e.declarations
  store : e.store.Outlines e'.store

/-- The type that is stored for a declaration: of a variable its type, of a method its return
type. -/
def Store.storedType (s : Store) : BindingId → Option TypeId
  | .type _ => none
  | .variable v => (s.variable v).type
  | .method m => (s.method m).returnType

theorem Store.Grows.storedType_eq {s s' : Store} (h : s.Grows s') (b : BindingId) :
    s'.storedType b = s.storedType b := by
  cases b with
  | type t => rfl
  | «variable» v => exact congrArg VariableBinding.type (h.variable_eq v)
  | method m => exact congrArg MethodBinding.returnType (h.method_eq m)

/-- The second environment has the outline of the first one, and the types that are stored for other
declarations than one. -/
structure Environment.Completes (b : BindingId) (e e' : Environment) : Prop where
  outlines : e.Outlines e'
  others : ∀ b' ≠ b, e'.store.storedType b' = e.store.storedType b'

namespace Store.Outlines

variable {s s' s'' : Store}

theorem of_grows (h : s.Grows s') : s.Outlines s' where
  vars := by rw [h.vars]
  methods := by rw [h.methods]
  size := h.size
  type t ht := by rw [h.kept t ht]
  bare := h.bare
  variable_eq v := by rw [h.variable_eq]
  method_eq m := by rw [h.method_eq]

theorem trans (h : s.Outlines s') (h' : s'.Outlines s'') : s.Outlines s'' where
  vars := h'.vars.trans h.vars
  methods := h'.methods.trans h.methods
  size := Nat.le_trans h.size h'.size
  type t ht := (h'.type t (Nat.lt_of_lt_of_le ht h.size)).trans (h.type t ht)
  bare t ht := by
    by_cases hs : t.index < s'.types.size
    · exact (h.bare t ht).of_outline_eq (h'.type t hs)
    · exact h'.bare t (Nat.le_of_not_lt hs)
  variable_eq v := (h'.variable_eq v).trans (h.variable_eq v)
  method_eq m := (h'.method_eq m).trans (h.method_eq m)

theorem modifyType (h : s.Outlines s') {t : TypeId} {change : TypeBinding → TypeBinding}
    (hc : ∀ b, (change b).outline = b.outline) : s.Outlines (s'.modifyType t change) where
  vars := h.vars
  methods := h.methods
  size := by
    rw [size_modifyType]
    exact h.size
  type u hu := by
    rcases type_modifyType_cases s' t change u with h' | ⟨-, -, h'⟩ <;> rw [h']
    · exact h.type u hu
    · rw [hc]
      exact h.type u hu
  bare u hu := by
    rcases type_modifyType_cases s' t change u with h' | ⟨-, -, h'⟩ <;> rw [h']
    · exact h.bare u hu
    · exact (h.bare u hu).of_outline_eq (hc _)
  variable_eq := h.variable_eq
  method_eq := h.method_eq

theorem modifyVariable (h : s.Outlines s') {v : VariableId}
    {change : VariableBinding → VariableBinding} (hc : ∀ b, (change b).outline = b.outline) :
    s.Outlines (s'.modifyVariable v change) where
  vars := by
    rw [size_modifyVariable]
    exact h.vars
  methods := h.methods
  size := h.size
  type := h.type
  bare := h.bare
  variable_eq w := by
    rcases variable_modifyVariable_cases s' v change w with h' | ⟨-, -, h'⟩ <;> rw [h']
    · exact h.variable_eq w
    · rw [hc]
      exact h.variable_eq w
  method_eq := h.method_eq

theorem modifyMethod (h : s.Outlines s') {m : MethodId} {change : MethodBinding → MethodBinding}
    (hc : ∀ b, (change b).outline = b.outline) : s.Outlines (s'.modifyMethod m change) where
  vars := h.vars
  methods := by
    rw [size_modifyMethod]
    exact h.methods
  size := h.size
  type := h.type
  bare := h.bare
  variable_eq := h.variable_eq
  method_eq o := by
    rcases method_modifyMethod_cases s' m change o with h' | ⟨-, -, h'⟩ <;> rw [h']
    · exact h.method_eq o
    · rw [hc]
      exact h.method_eq o

end Store.Outlines

namespace Environment

theorem Outlines.refl (e : Environment) : e.Outlines e :=
  ⟨rfl, rfl, rfl, .of_grows (.refl _)⟩

theorem Outlines.of_grows {e e' : Environment} (h : e.Grows e') : e.Outlines e' :=
  ⟨h.context, h.types, h.declarations, .of_grows h.store⟩

theorem Outlines.trans {e e' e'' : Environment} (h : e.Outlines e') (h' : e'.Outlines e'') :
    e.Outlines e'' :=
  ⟨h'.context.trans h.context, h'.types.trans h.types, h'.declarations.trans h.declarations,
    h.store.trans h'.store⟩

/-! ## The second pass -/

/-- A property of environments that is not changed while a declaration is completed: not by types
made on the way, and not by what leaves the outline of the declaration as it is. -/
class Outlasts (b : BindingId) (I : Environment → Prop) : Prop extends Lasts I where
  modifyType : ∀ {t : TypeId} {change : TypeBinding → TypeBinding}, b = .type t →
    (∀ x, (change x).outline = x.outline) → Keeps I (EnvironmentM.modifyType t change)
  modifyVariable : ∀ {v : VariableId} {change : VariableBinding → VariableBinding}, b = .variable v →
    (∀ x, (change x).outline = x.outline) → Keeps I (EnvironmentM.modifyVariable v change)
  modifyMethod : ∀ {m : MethodId} {change : MethodBinding → MethodBinding}, b = .method m →
    (∀ x, (change x).outline = x.outline) → Keeps I (EnvironmentM.modifyMethod m change)

section Keeps

variable {I : Environment → Prop}

theorem keeps_completeTypeParameter {t : TypeId} [Outlasts (.type t) I] (n : Node) :
    Keeps I (completeTypeParameter t n) := by
  have : Lasts I := Outlasts.toLasts (.type t)
  unfold completeTypeParameter
  split
  · exact (Keeps.mapM fun each _ => keeps_resolveType each n).bind fun bounds =>
      Outlasts.modifyType rfl (by intro x; rfl)
  · exact .pure _

theorem keeps_impliedSuperclass [Lasts I] (b : TypeBinding) : Keeps I (impliedSuperclass b) := by
  unfold impliedSuperclass
  split
  · exact .ite (.pure none) (keeps_objectType.bind fun _ => .pure _)
  · exact (keeps_recoveredType _).bind fun _ => .pure _
  · exact (keeps_recoveredType _).bind fun _ => .pure _
  · exact .pure none

theorem keeps_completeNamedType {t : TypeId} [Outlasts (.type t) I] (n : Node) :
    Keeps I (completeNamedType t n) := by
  have : Lasts I := Outlasts.toLasts (.type t)
  have supertypes : ∀ superclass : Option TypeId, Keeps I (do
      EnvironmentM.modifyType t fun b => { b with superclass := superclass }
      (listedInterfaces n .superInterfaces ++ listedInterfaces n .extendsInterfaces).forM
        fun each => do
          let up ← resolveType each n
          EnvironmentM.modifyType t fun b => { b with interfaces := b.interfaces ++ [up] }) := by
    refine fun superclass => (Outlasts.modifyType rfl (by intro x; rfl)).bind fun _ =>
      .forM fun each _ => ?_
    exact (keeps_resolveType each n).bind fun up => Outlasts.modifyType rfl (by intro x; rfl)
  unfold completeNamedType
  dsimp only
  split
  · exact (keeps_resolveType _ n).bind supertypes
  · exact (keeps_read _).bind fun s => (keeps_impliedSuperclass _).bind supertypes

theorem keeps_completeAnonymous {t : TypeId} [Outlasts (.type t) I] (body : Node) :
    Keeps I (completeAnonymous t body) := by
  have : Lasts I := Outlasts.toLasts (.type t)
  have extended : ∀ {change : TypeBinding → TypeBinding}, (∀ x, (change x).outline = x.outline) →
      Keeps I (EnvironmentM.modifyType t change) := Outlasts.modifyType rfl
  refine (Keeps.ofExcept _).bind fun creation => .ite (extended (by intro x; rfl)) ?_
  refine Keeps.bind (keeps_resolveType? _ _) fun up => ?_
  cases up with
  | none => exact keeps_objectType.bind fun object => extended (by intro x; rfl)
  | some up =>
    refine (keeps_read store).bind fun s => .ite ?_ (extended (by intro x; rfl))
    exact keeps_objectType.bind fun object => extended (by intro x; rfl)

theorem keeps_variableType [Lasts I] (n : Node) : Keeps I (variableType n) := by
  refine (keeps_read document).bind fun d => (Keeps.ofExcept _).bind fun _ => ?_
  exact (keeps_resolveType? _ _).bind fun _ => keeps_arrayOf _ _

theorem keeps_completeParameter {m : MethodId} [Outlasts (.method m) I] (n : Node) :
    Keeps I (completeParameter m n) := by
  have : Lasts I := Outlasts.toLasts (.method m)
  exact (keeps_variableType n).bind fun type => (keeps_read _).bind fun d =>
    Outlasts.modifyMethod rfl (by intro x; rfl)

theorem keeps_completeMethod {m : MethodId} [Outlasts (.method m) I] (n : Node) :
    Keeps I (completeMethod m n) := by
  have : Lasts I := Outlasts.toLasts (.method m)
  refine (keeps_read store).bind fun s =>
    .ite ((Keeps.map some (keeps_primitiveType _)).bind fun returnType => ?_)
      ((keeps_resolveType? _ _).bind fun returnType => ?_)
  -- both kinds of method store their return type and go on with the parameters
  all_goals
    refine (Outlasts.modifyMethod rfl (by intro x; rfl)).bind fun _ => ?_
    split
    · exact .forM fun each _ => keeps_completeParameter each
    · exact .pure _

/-- The second pass completes one declaration at a time. -/
theorem keeps_complete (b : BindingId) [Outlasts b I] (n : Node) : Keeps I (complete b n) := by
  have : Lasts I := Outlasts.toLasts b
  cases b with
  | type t =>
    exact Keeps.bind (keeps_read store) fun s => .ite (keeps_completeTypeParameter n)
      (.ite (keeps_completeAnonymous n) (keeps_completeNamedType n))
  | method m => exact keeps_completeMethod n
  | «variable» v =>
    exact (keeps_variableType n).bind fun type => Outlasts.modifyVariable rfl (by intro x; rfl)

end Keeps

/-! ## Outlines outlast the second pass -/

section Outlasts

variable {e₀ : Environment} {b : BindingId}

theorem Completes.refl (b : BindingId) (e : Environment) : e.Completes b e :=
  ⟨.refl e, fun _ _ => rfl⟩

/-- Growing completes nothing. -/
theorem Completes.grow {e e' : Environment} (h : e₀.Completes b e) (grown : e.Grows e') :
    e₀.Completes b e' := by
  refine ⟨h.outlines.trans (.of_grows grown), fun b' hb' => ?_⟩
  rw [grown.store.storedType_eq]
  exact h.others b' hb'

instance : LastsEntries (e₀.Completes b) where
  addType {e _} h hb leaf := h.grow (LastsEntries.addType (Grows.refl e) hb leaf)
  recover {e _} h fresh := h.grow (LastsEntries.recover (Grows.refl e) fresh)
  derive {e _ _} h fresh hb leaf := h.grow (LastsEntries.derive (Grows.refl e) fresh hb leaf)

instance : Outlasts b (e₀.Completes b) where
  modifyType _ hc := .modify fun _ h =>
    ⟨{ h.outlines with store := h.outlines.store.modifyType hc }, fun b' hb' => by
      cases b' <;> exact h.others _ hb'⟩
  modifyVariable {v change} same hc := by
    subst same
    refine .modify fun e h => ⟨{ h.outlines with store := h.outlines.store.modifyVariable hc }, ?_⟩
    intro b' hb'
    rw [← h.others b' hb']
    cases b' with
    | type _ => rfl
    | method _ => rfl
    | «variable» w =>
      rcases Store.variable_modifyVariable_cases e.store v change w with h' | ⟨same, -, -⟩
      · exact congrArg VariableBinding.type h'
      · exact absurd (congrArg (fun i => BindingId.variable ⟨i⟩) same) hb'
  modifyMethod {m change} same hc := by
    subst same
    refine .modify fun e h => ⟨{ h.outlines with store := h.outlines.store.modifyMethod hc }, ?_⟩
    intro b' hb'
    rw [← h.others b' hb']
    cases b' with
    | type _ => rfl
    | «variable» _ => rfl
    | method o =>
      rcases Store.method_modifyMethod_cases e.store m change o with h' | ⟨same, -, -⟩
      · exact congrArg MethodBinding.returnType h'
      · exact absurd (congrArg (fun i => BindingId.method ⟨i⟩) same) hb'

/-- Completing a declaration keeps the outline. -/
theorem outlines_complete (b : BindingId) (n : Node) : Keeps e₀.Outlines (complete b n) :=
  fun e he => he.trans (keeps_complete b n e (Completes.refl b e)).outlines

end Outlasts

end Environment

end JavaScope
