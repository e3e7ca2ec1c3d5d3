import JavaScope.Binding.Visibility
import JavaScope.Proofs.Binding.Acyclic

/-!
# Supertypes

The test for a supertype goes from a type to the declaration of its superclass, and to those of its
interfaces only if it looks for an interface. In a hierarchy that fits the language nothing is lost by
this: what stands above an interface are interfaces, so no way to a class leads through one. The test
then tells exactly what stands above what.
-/

namespace JavaScope

/-! ## Computations that decide -/

/-- The computation answers, with whether the proposition holds. -/
def Decides (x : Except Fault Bool) (P : Prop) : Prop :=
  ∃ b, x = .ok b ∧ (b = true ↔ P)

namespace Decides

variable {x y : Except Fault Bool} {P Q : Prop}

protected theorem pure {b : Bool} (h : b = true ↔ P) : Decides (.ok b) P :=
  ⟨b, rfl, h⟩

theorem congr (h : Decides x P) (same : P ↔ Q) : Decides x Q := by
  obtain ⟨b, answer, means⟩ := h
  exact ⟨b, answer, means.trans same⟩

theorem eq_true_iff (h : Decides x P) : x = .ok true ↔ P := by
  obtain ⟨b, rfl, means⟩ := h
  rw [Except.ok.injEq, means]

theorem answers (h : Decides x P) : Answers x := by
  obtain ⟨b, answer, -⟩ := h
  exact ⟨b, answer⟩

protected theorem ite {c : Prop} [Decidable c] (h : c → Decides x P) (h' : ¬c → Decides y P) :
    Decides (if c then x else y) P := by
  split
  · next hc => exact h hc
  · next hc => exact h' hc

/-- What the second computation decides counts if the first one denies. -/
theorem orElse (h : Decides x P) (h' : Decides y Q) :
    Decides (x >>= fun found => if found then pure true else y) (P ∨ Q) := by
  obtain ⟨found, rfl, means⟩ := h
  cases found with
  | true => exact .pure (iff_of_true rfl (.inl (means.1 rfl)))
  | false =>
    have not : ¬ P := fun holds => absurd (means.2 holds) Bool.false_ne_true
    exact h'.congr (by simp only [not, false_or])

protected theorem anyM {α : Type} {xs : List α} {f : α → Except Fault Bool} {R : α → Prop}
    (h : ∀ a ∈ xs, Decides (f a) (R a)) : Decides (xs.anyM f) (∃ a ∈ xs, R a) := by
  induction xs with
  | nil => exact .pure (by simp)
  | cons a xs ih =>
    have rest := ih fun a' ha' => h a' (List.mem_cons_of_mem a ha')
    rw [List.anyM_cons]
    exact ((h a List.mem_cons_self).orElse rest).congr (by simp)

end Decides

namespace Store

variable {s : Store} {sup t u : TypeId}

/-! ## The steps of the test -/

/-- The test for the supertype `sup` goes from `t` to `u`: the declaration of the superclass or, if
`sup` is an interface, of an interface. -/
def StepsTowards (s : Store) (sup t u : TypeId) : Prop :=
  ∃ up, ((s.type t).superclass = some up ∨
    s.isInterface sup = true ∧ some up ∈ (s.type t).interfaces) ∧ s.declarationOfType up = u

theorem StepsTowards.inherits (h : s.StepsTowards sup t u) : s.Inherits t u := by
  obtain ⟨up, link, declaration⟩ := h
  exact ⟨up, link.imp_right And.right, declaration⟩

/-- A way to another type begins with the superclass or with an interface. -/
theorem reaches_iff_of_ne (other : t ≠ sup) : Relation.ReflTransGen (s.StepsTowards sup) t sup ↔
    (∃ up, (s.type t).superclass = some up ∧
      Relation.ReflTransGen (s.StepsTowards sup) (s.declarationOfType up) sup) ∨
    s.isInterface sup = true ∧ ∃ each ∈ (s.type t).interfaces, ∃ up, each = some up ∧
      Relation.ReflTransGen (s.StepsTowards sup) (s.declarationOfType up) sup := by
  rw [Relation.ReflTransGen.cases_head_iff]
  constructor
  · rintro (same | ⟨u, ⟨up, superclass | ⟨kind, member⟩, rfl⟩, rest⟩)
    · exact absurd same other
    · exact .inl ⟨up, superclass, rest⟩
    · exact .inr ⟨kind, _, member, up, rfl, rest⟩
  · rintro (⟨up, superclass, rest⟩ | ⟨kind, _, member, up, rfl, rest⟩)
    · exact .inr ⟨_, ⟨up, .inl superclass, rfl⟩, rest⟩
    · exact .inr ⟨_, ⟨up, .inr ⟨kind, member⟩, rfl⟩, rest⟩

/-- Where no type inherits from itself, and none is missing among the interfaces if these count, the
test tells whether its steps lead to the type. -/
theorem decides_isSupertype (acyclic : ∀ t, ¬ Relation.TransGen s.Inherits t t)
    (given : s.isInterface sup = true → ∀ t, none ∉ (s.type t).interfaces) (t : TypeId) :
    Decides (s.isSupertype sup (some t)) (Relation.ReflTransGen (s.StepsTowards sup) t sup) := by
  refine holds_of_acyclic
    (P := fun fuel t =>
      Decides (s.isSupertypeWith sup fuel t) (Relation.ReflTransGen (s.StepsTowards sup) t sup))
    acyclic (fun _ _ link => link.index_lt) ?_ (Nat.lt_succ_self _) t
  intro fuel t next
  unfold isSupertypeWith
  refine .ite (fun same => .pure (iff_of_true rfl (same ▸ .refl))) fun other => ?_
  refine Decides.congr ?_ (reaches_iff_of_ne other).symm
  have interfaces : Decides (if s.isInterface sup then (s.type t).interfaces.anyM fun each => do
        s.isSupertypeWith sup fuel (s.declarationOfType (← needed each)) else pure false)
      (s.isInterface sup = true ∧ ∃ each ∈ (s.type t).interfaces, ∃ up, each = some up ∧
        Relation.ReflTransGen (s.StepsTowards sup) (s.declarationOfType up) sup) := by
    refine .ite (fun kind => ?_) fun kind => .pure (by simp [kind])
    simp only [kind, true_and]
    refine .anyM fun each member => ?_
    cases each with
    | none => exact absurd member (given kind t)
    | some up => exact (next _ ⟨up, .inr member, rfl⟩).congr (by simp)
  cases superclass : (s.type t).superclass with
  | none => exact (Decides.pure (by simp)).orElse interfaces
  | some up => exact ((next _ ⟨up, .inl superclass, rfl⟩).congr (by simp)).orElse interfaces

/-! ## Hierarchies that fit the language -/

/-- No type inherits from itself. What a type lists as interfaces are interfaces, a declared interface
has no superclass, and what is used with arguments is a declaration. -/
structure IsHierarchy (s : Store) : Prop where
  inherits : ∀ t, ¬ Relation.TransGen s.Inherits t t
  interfaces : ∀ t, ∀ each ∈ (s.type t).interfaces, ∃ up, each = some up ∧ s.isInterface up = true
  superclass : ∀ t, (s.type t).genericType = none → s.isInterface t = true →
    (s.type t).superclass = none
  generic : ∀ t g, (s.type t).genericType = some g → (s.type g).genericType = none

namespace IsHierarchy

variable (hierarchy : s.IsHierarchy)
include hierarchy

theorem genericType_declarationOfType (t : TypeId) :
    (s.type (s.declarationOfType t)).genericType = none := by
  rw [declarationOfType]
  cases generic : (s.type t).genericType with
  | none => exact generic
  | some g => exact hierarchy.generic t g generic

theorem isInterface_declarationOfType (t : TypeId) :
    s.isInterface (s.declarationOfType t) = s.isInterface t := by
  have same : s.declarationOfType (s.declarationOfType t) = s.declarationOfType t := by
    rw [declarationOfType, hierarchy.genericType_declarationOfType]
    rfl
  rw [isInterface, isInterface, same]

/-- What is listed as an interface leads to declared interfaces only. -/
theorem isInterface_of_reaches {up : TypeId} (member : some up ∈ (s.type t).interfaces)
    (way : Relation.ReflTransGen s.Inherits (s.declarationOfType up) u) :
    (s.type u).genericType = none ∧ s.isInterface u = true := by
  have listed : ∀ {t up}, some up ∈ (s.type t).interfaces →
      (s.type (s.declarationOfType up)).genericType = none ∧
        s.isInterface (s.declarationOfType up) = true := by
    intro t up member
    obtain ⟨_, same, kind⟩ := hierarchy.interfaces t _ member
    cases same
    rw [hierarchy.isInterface_declarationOfType]
    exact ⟨hierarchy.genericType_declarationOfType up, kind⟩
  induction way with
  | refl => exact listed member
  | tail _ step ih =>
    obtain ⟨up, superclass | member, rfl⟩ := step
    · rw [hierarchy.superclass _ ih.1 ih.2] at superclass
      cases superclass
    · exact listed member

/-- Whatever stands above a type, the steps of the test lead to it: a way through an interface leads
to an interface, and then the test looks at the interfaces. -/
theorem reaches_iff : Relation.ReflTransGen (s.StepsTowards sup) t sup ↔
    Relation.ReflTransGen s.Inherits t sup := by
  constructor
  · exact Relation.ReflTransGen.mono (fun _ _ => StepsTowards.inherits) t sup
  · intro way
    induction way using Relation.ReflTransGen.head_induction_on with
    | refl => exact .refl
    | head step rest ih =>
      obtain ⟨up, superclass | member, rfl⟩ := step
      · exact ih.head ⟨up, .inl superclass, rfl⟩
      · have kind := (hierarchy.isInterface_of_reaches member rest).2
        exact ih.head ⟨up, .inr ⟨kind, member⟩, rfl⟩

/-- The test always answers, and tells whether the type is or stands above the other one: whether it
is reached by steps to the declaration of the superclass or of an interface. So every type is its own
supertype, and supertypes of supertypes are supertypes. -/
theorem decides_reachability :
    (∀ sup t, Decides (s.isSupertype sup (some t)) (Relation.ReflTransGen s.Inherits t sup)) ∧
      (∀ t, s.isSupertype t (some t) = .ok true) ∧
      ∀ a b c, s.isSupertype a (some b) = .ok true → s.isSupertype b (some c) = .ok true →
        s.isSupertype a (some c) = .ok true := by
  have decides : ∀ sup t,
      Decides (s.isSupertype sup (some t)) (Relation.ReflTransGen s.Inherits t sup) := by
    intro sup t
    have given : ∀ t, none ∉ (s.type t).interfaces := by
      intro t member
      obtain ⟨_, same, -⟩ := hierarchy.interfaces t _ member
      cases same
    exact (decides_isSupertype hierarchy.inherits (fun _ => given) t).congr hierarchy.reaches_iff
  refine ⟨decides, fun t => (decides t t).eq_true_iff.2 .refl, ?_⟩
  intro a b c below above
  have lower := (decides b c).eq_true_iff.1 above
  have upper := (decides a b).eq_true_iff.1 below
  exact (decides a c).eq_true_iff.2 (lower.trans upper)

end IsHierarchy

/-- A generic interface, an interface that extends a use of it, a generic class that implements the
second one, and a subclass of a use of this class. -/
def shapes : Store where
  types := #[{ name := "Sized", kind := .interfaceType },
    { name := "Sized<T>", kind := .parameterized, genericType := some ⟨0⟩ },
    { name := "Shape", kind := .interfaceType, interfaces := [some ⟨1⟩] },
    { name := "Box", interfaces := [some ⟨2⟩] },
    { name := "Box<T>", kind := .parameterized, genericType := some ⟨3⟩ },
    { name := "Crate", superclass := some ⟨4⟩ }]

theorem shapes_isHierarchy : shapes.IsHierarchy where
  inherits := not_inherits_of_listed (by decide)
  interfaces := by
    have each : ∀ t, ∀ each ∈ (shapes.type t).interfaces, each.any shapes.isInterface = true :=
      shapes.forall_of_listed (by decide) fun t bare => by simp [bare]
    intro t up member
    exact (Option.any_eq_true _ _).1 (each t up member)
  superclass := shapes.forall_of_listed (by decide) fun t bare => by simp [bare]
  generic := by
    have each : ∀ t, ∀ g ∈ (shapes.type t).genericType.toList, (shapes.type g).genericType = none :=
      shapes.forall_of_listed (by decide) fun t bare => by simp [bare]
    intro t g generic
    exact each t g (Option.mem_toList.2 generic)

theorem decides_reachability_shapes :
    shapes.IsHierarchy ∧
      (∀ sup t,
        Decides (shapes.isSupertype sup (some t)) (Relation.ReflTransGen shapes.Inherits t sup)) ∧
      (∀ t, shapes.isSupertype t (some t) = .ok true) ∧
      ∀ a b c, shapes.isSupertype a (some b) = .ok true → shapes.isSupertype b (some c) = .ok true →
        shapes.isSupertype a (some c) = .ok true :=
  ⟨shapes_isHierarchy, shapes_isHierarchy.decides_reachability⟩

-- The subclass leads to the interfaces as they are declared, but to no use of one.
example : shapes.isSupertype ⟨0⟩ (some ⟨5⟩) = .ok true ∧
    shapes.isSupertype ⟨1⟩ (some ⟨5⟩) = .ok false ∧
    shapes.isSupertype ⟨5⟩ (some ⟨0⟩) = .ok false := by
  decide

end Store

end JavaScope
