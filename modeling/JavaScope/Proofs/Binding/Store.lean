import JavaScope.Binding.Store

/-!
# Laws of the store

Reading back what was added or changed, and stores without dangling links.
-/

namespace JavaScope

theorem needed_eq_ok {α : Type} {link : Option α} {a : α} : needed link = .ok a ↔ link = some a := by
  cases link <;> simp [needed]

/-! ## Reading after a change -/

section Arrays

variable {α : Type} (xs : Array α) (a d : α) (i j : Nat)

theorem getD_of_size_le (h : xs.size ≤ i) : xs.getD i d = d := by
  simp [Array.getD, Nat.not_lt.mpr h]

/-- An entry of the longer array is an old one, the new one, or none at all. -/
theorem getD_push_cases :
    (i < xs.size ∧ (xs.push a).getD i d = xs.getD i d) ∨
      (i = xs.size ∧ (xs.push a).getD i d = a) ∨
      (xs.size < i ∧ (xs.push a).getD i d = d) := by
  rcases Nat.lt_trichotomy i xs.size with hlt | heq | hgt
  · have hlt' : i < xs.size + 1 := by omega
    exact .inl ⟨hlt, by simp [Array.getD, hlt, hlt', Array.getElem_push]⟩
  · exact .inr (.inl ⟨heq, by simp [Array.getD, heq]⟩)
  · refine .inr (.inr ⟨hgt, getD_of_size_le _ _ _ ?_⟩)
    rw [Array.size_push]
    omega

/-- An entry of the changed array is the old one, or the changed one at the place of the change. -/
theorem getD_modify_cases (change : α → α) :
    (xs.modify j change).getD i d = xs.getD i d ∨
      (i = j ∧ i < xs.size ∧ (xs.modify j change).getD i d = change (xs.getD i d)) := by
  by_cases hi : i < xs.size
  · by_cases h : j = i
    · exact .inr ⟨h.symm, hi, by simp [Array.getD, hi, Array.getElem_modify, h]⟩
    · exact .inl (by simp [Array.getD, hi, Array.getElem_modify, h])
  · exact .inl (by simp [Array.getD, hi])

end Arrays

namespace Store

theorem type_of_size_le {s : Store} {t : TypeId} (h : s.types.size ≤ t.index) : s.type t = {} :=
  getD_of_size_le _ _ _ h

theorem noParenthesis_of_all {s : Store}
    (h : s.methods.all fun b => !b.name.toList.contains '(') (m : MethodId) :
    '(' ∉ (s.method m).name.toList := by
  rw [method]
  rcases Nat.lt_or_ge m.index s.methods.size with small | large
  · have all := Array.all_eq_true.1 h m.index small
    rw [Array.getD, dif_pos small]
    simpa using all
  · rw [getD_of_size_le _ _ _ large]
    exact List.not_mem_nil

theorem type_addType_cases (s : Store) (b : TypeBinding) (t : TypeId) :
    (t.index < s.types.size ∧ (s.addType b).2.type t = s.type t) ∨
      (t.index = s.types.size ∧ (s.addType b).2.type t = b) ∨
      (s.types.size < t.index ∧ (s.addType b).2.type t = {}) :=
  getD_push_cases s.types b {} t.index

theorem variable_addVariable_cases (s : Store) (b : VariableBinding) (v : VariableId) :
    (v.index < s.vars.size ∧ (s.addVariable b).2.variable v = s.variable v) ∨
      (v.index = s.vars.size ∧ (s.addVariable b).2.variable v = b) ∨
      (s.vars.size < v.index ∧ (s.addVariable b).2.variable v = {}) :=
  getD_push_cases s.vars b {} v.index

theorem method_addMethod_cases (s : Store) (b : MethodBinding) (m : MethodId) :
    (m.index < s.methods.size ∧ (s.addMethod b).2.method m = s.method m) ∨
      (m.index = s.methods.size ∧ (s.addMethod b).2.method m = b) ∨
      (s.methods.size < m.index ∧ (s.addMethod b).2.method m = {}) :=
  getD_push_cases s.methods b {} m.index

theorem type_modifyType_cases (s : Store) (t : TypeId) (change : TypeBinding → TypeBinding)
    (u : TypeId) :
    (s.modifyType t change).type u = s.type u ∨
      (u.index = t.index ∧ u.index < s.types.size ∧
        (s.modifyType t change).type u = change (s.type u)) :=
  getD_modify_cases s.types {} u.index t.index change

theorem variable_modifyVariable_cases (s : Store) (v : VariableId)
    (change : VariableBinding → VariableBinding) (w : VariableId) :
    (s.modifyVariable v change).variable w = s.variable w ∨
      (w.index = v.index ∧ w.index < s.vars.size ∧
        (s.modifyVariable v change).variable w = change (s.variable w)) :=
  getD_modify_cases s.vars {} w.index v.index change

theorem method_modifyMethod_cases (s : Store) (m : MethodId)
    (change : MethodBinding → MethodBinding) (o : MethodId) :
    (s.modifyMethod m change).method o = s.method o ∨
      (o.index = m.index ∧ o.index < s.methods.size ∧
        (s.modifyMethod m change).method o = change (s.method o)) :=
  getD_modify_cases s.methods {} o.index m.index change

@[simp] theorem size_addType (s : Store) (b : TypeBinding) :
    (s.addType b).2.types.size = s.types.size + 1 :=
  Array.size_push _

@[simp] theorem size_addVariable (s : Store) (b : VariableBinding) :
    (s.addVariable b).2.vars.size = s.vars.size + 1 :=
  Array.size_push _

@[simp] theorem size_addMethod (s : Store) (b : MethodBinding) :
    (s.addMethod b).2.methods.size = s.methods.size + 1 :=
  Array.size_push _

@[simp] theorem size_modifyType (s : Store) (t : TypeId) (change : TypeBinding → TypeBinding) :
    (s.modifyType t change).types.size = s.types.size :=
  Array.size_modify

@[simp] theorem size_modifyVariable (s : Store) (v : VariableId)
    (change : VariableBinding → VariableBinding) :
    (s.modifyVariable v change).vars.size = s.vars.size :=
  Array.size_modify

@[simp] theorem size_modifyMethod (s : Store) (m : MethodId)
    (change : MethodBinding → MethodBinding) :
    (s.modifyMethod m change).methods.size = s.methods.size :=
  Array.size_modify

/-! ## Links -/

/-- The store has the binding. -/
def Has (s : Store) : BindingId → Prop
  | .type t => t.index < s.types.size
  | .variable v => v.index < s.vars.size
  | .method m => m.index < s.methods.size

theorem Has.mono {s s' : Store} {b : BindingId} (h : s.Has b)
    (types : s.types.size ≤ s'.types.size) (vars : s.vars.size ≤ s'.vars.size)
    (methods : s.methods.size ≤ s'.methods.size) : s'.Has b := by
  cases b with
  | type t => exact Nat.lt_of_lt_of_le h types
  | «variable» v => exact Nat.lt_of_lt_of_le h vars
  | method m => exact Nat.lt_of_lt_of_le h methods

/-- The type is in the store, and no use of a generic type. -/
def IsPlain (s : Store) (t : TypeId) : Prop :=
  s.Has (.type t) ∧ (s.type t).genericType = none

theorem variable_addVariable_of_has {s : Store} {v : VariableId} (h : s.Has (.variable v))
    (b : VariableBinding) : (s.addVariable b).2.variable v = s.variable v := by
  have hlt : v.index < s.vars.size := h
  rcases variable_addVariable_cases s b v with ⟨-, h'⟩ | ⟨heq, -⟩ | ⟨hgt, -⟩
  · exact h'
  · omega
  · omega

@[simp] theorem variable_addVariable_self (s : Store) (b : VariableBinding) :
    (s.addVariable b).2.variable (s.addVariable b).1 = b := by
  rcases variable_addVariable_cases s b (s.addVariable b).1 with ⟨hlt, -⟩ | ⟨-, h'⟩ | ⟨hgt, -⟩
  · exact absurd hlt (Nat.lt_irrefl _)
  · exact h'
  · exact absurd hgt (Nat.lt_irrefl _)

@[simp] theorem method_addMethod_self (s : Store) (b : MethodBinding) :
    (s.addMethod b).2.method (s.addMethod b).1 = b := by
  rcases method_addMethod_cases s b (s.addMethod b).1 with ⟨hlt, -⟩ | ⟨-, h'⟩ | ⟨hgt, -⟩
  · exact absurd hlt (Nat.lt_irrefl _)
  · exact h'
  · exact absurd hgt (Nat.lt_irrefl _)

theorem variable_modifyVariable_of_has {s : Store} {v : VariableId} (h : s.Has (.variable v))
    (change : VariableBinding → VariableBinding) :
    (s.modifyVariable v change).variable v = change (s.variable v) := by
  have hlt : v.index < s.vars.size := h
  simp [Store.modifyVariable, Store.variable, Array.getD, hlt, Array.getElem_modify_self]

theorem method_modifyMethod_of_has {s : Store} {m : MethodId} (h : s.Has (.method m))
    (change : MethodBinding → MethodBinding) :
    (s.modifyMethod m change).method m = change (s.method m) := by
  have hlt : m.index < s.methods.size := h
  simp [Store.modifyMethod, Store.method, Array.getD, hlt, Array.getElem_modify_self]

end Store

/-- The types that a type refers to. -/
def TypeBinding.links (b : TypeBinding) : List TypeId :=
  b.declaringClass.toList ++ b.superclass.toList ++ b.interfaces.filterMap id ++
    b.declaredTypes ++ b.typeParameters ++ b.typeArguments.filterMap id ++ b.bounds.filterMap id ++
    b.genericType.toList ++ b.elementType.toList

/-- The types that a variable refers to. -/
def VariableBinding.links (b : VariableBinding) : List TypeId :=
  b.type.toList ++ b.declaringClass.toList

/-- The types that a method refers to. -/
def MethodBinding.links (b : MethodBinding) : List TypeId :=
  b.declaringClass.toList ++ b.returnType.toList ++ b.parameterTypes.filterMap id ++
    b.typeParameters

/-- No type that a binding refers to is missing from the store. -/
structure Store.Closed (s : Store) : Prop where
  types : ∀ t, ∀ u ∈ (s.type t).links, u.index < s.types.size
  vars : ∀ v, ∀ u ∈ (s.variable v).links, u.index < s.types.size
  methods : ∀ m, ∀ u ∈ (s.method m).links, u.index < s.types.size

namespace Store

namespace Closed

variable {s : Store}

theorem empty : Closed {} := by
  refine ⟨?_, ?_, ?_⟩ <;> intro _ _ h <;> cases h

theorem addType {b : TypeBinding} (h : s.Closed) (hb : ∀ u ∈ b.links, u.index < s.types.size) :
    (s.addType b).2.Closed where
  types t u hu := by
    rw [size_addType]
    rcases type_addType_cases s b t with ⟨-, ht⟩ | ⟨-, ht⟩ | ⟨-, ht⟩ <;> rw [ht] at hu
    · exact Nat.lt_succ_of_lt (h.types t u hu)
    · exact Nat.lt_succ_of_lt (hb u hu)
    · cases hu
  vars v u hu := by
    rw [size_addType]
    exact Nat.lt_succ_of_lt (h.vars v u hu)
  methods m u hu := by
    rw [size_addType]
    exact Nat.lt_succ_of_lt (h.methods m u hu)

theorem addVariable {b : VariableBinding} (h : s.Closed)
    (hb : ∀ u ∈ b.links, u.index < s.types.size) : (s.addVariable b).2.Closed where
  types := h.types
  vars v u hu := by
    rcases variable_addVariable_cases s b v with ⟨-, hv⟩ | ⟨-, hv⟩ | ⟨-, hv⟩ <;> rw [hv] at hu
    · exact h.vars v u hu
    · exact hb u hu
    · cases hu
  methods := h.methods

theorem addMethod {b : MethodBinding} (h : s.Closed)
    (hb : ∀ u ∈ b.links, u.index < s.types.size) : (s.addMethod b).2.Closed where
  types := h.types
  vars := h.vars
  methods m u hu := by
    rcases method_addMethod_cases s b m with ⟨-, hm⟩ | ⟨-, hm⟩ | ⟨-, hm⟩ <;> rw [hm] at hu
    · exact h.methods m u hu
    · exact hb u hu
    · cases hu

theorem modifyType {t : TypeId} {change : TypeBinding → TypeBinding} (h : s.Closed)
    (hb : ∀ b, ∀ u ∈ (change b).links, u ∈ b.links ∨ u.index < s.types.size) :
    (s.modifyType t change).Closed where
  types v u hu := by
    rw [size_modifyType]
    rcases type_modifyType_cases s t change v with hv | ⟨-, -, hv⟩ <;> rw [hv] at hu
    · exact h.types v u hu
    · exact (hb _ u hu).elim (h.types v u) id
  vars v u hu := by
    rw [size_modifyType]
    exact h.vars v u hu
  methods m u hu := by
    rw [size_modifyType]
    exact h.methods m u hu

theorem modifyVariable {v : VariableId} {change : VariableBinding → VariableBinding}
    (h : s.Closed) (hb : ∀ b, ∀ u ∈ (change b).links, u ∈ b.links ∨ u.index < s.types.size) :
    (s.modifyVariable v change).Closed where
  types := h.types
  vars w u hu := by
    rcases variable_modifyVariable_cases s v change w with hw | ⟨-, -, hw⟩ <;> rw [hw] at hu
    · exact h.vars w u hu
    · exact (hb _ u hu).elim (h.vars w u) id
  methods := h.methods

theorem modifyMethod {m : MethodId} {change : MethodBinding → MethodBinding} (h : s.Closed)
    (hb : ∀ b, ∀ u ∈ (change b).links, u ∈ b.links ∨ u.index < s.types.size) :
    (s.modifyMethod m change).Closed where
  types := h.types
  vars := h.vars
  methods o u hu := by
    rcases method_modifyMethod_cases s m change o with ho | ⟨-, -, ho⟩ <;> rw [ho] at hu
    · exact h.methods o u hu
    · exact (hb _ u hu).elim (h.methods o u) id

end Closed

end Store

end JavaScope
