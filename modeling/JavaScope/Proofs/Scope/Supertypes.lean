import Mathlib.Logic.Relation
import JavaScope.Proofs.Environment.Closed
import JavaScope.Scope.Members

/-!
# The hierarchy of an environment

What stands above a type is known before anything is searched for: also the type above all others has
its place in the store before it is made. A search through the hierarchy only ever makes this type, so
it sees the same members and the same supertypes all the way.
-/

namespace JavaScope

/-! ## Members -/

/-- The members of a type that the flags ask for, in the order in which they are offered. -/
def membersAsked (s : Store) (flags : Flags) (t : TypeId) : List BindingId :=
  (if flags.vars then (s.type t).declaredFields.map .variable else []) ++
    (if flags.methods then
      ((s.type t).declaredMethods.filter fun m => !(s.method m).isConstructor).map .method else []) ++
    if flags.types then (s.type t).declaredTypes.map .type else []

theorem offerMembers_eq {σ : Type} [Request σ] (flags : Flags) (t : TypeId) :
    offerMembers (σ := σ) flags t =
      SearchM.read (fun e => membersAsked e.store flags t) >>= SearchM.offerAll :=
  rfl

namespace Store.Grows

variable {s s' : Store}

theorem membersAsked_eq (h : s.Grows s') (flags : Flags) (t : TypeId) :
    membersAsked s' flags t = membersAsked s flags t := by
  obtain ⟨fields, methods, types, -⟩ := h.declares_eq t
  simp only [membersAsked, fields, methods, types, h.method_eq]

theorem membersOf_eq (h : s.Grows s') (t : TypeId) : membersOf s' t = membersOf s t := by
  obtain ⟨fields, methods, types, -⟩ := h.declares_eq t
  simp only [membersOf, fields, methods, types]

end Store.Grows

namespace Environment

/-! ## The type above all others -/

/-- The type above all others, or the place where it is going to be made. -/
def objectId (e : Environment) : TypeId :=
  (e.recovered.lookup objectName).getD ⟨e.store.types.size⟩

/-- The environment in which the type above all others is made. -/
def withObject (e : Environment) : Environment :=
  (outcome objectType e).2

/-- The second environment is the first one, or has the type above all others besides. -/
def IsRooted (e e' : Environment) : Prop :=
  e' = e ∨ e' = e.withObject

theorem withObject_of_known {e : Environment} {t : TypeId}
    (known : e.recovered.lookup objectName = some t) : e.objectId = t ∧ e.withObject = e := by
  refine ⟨by rw [objectId, known]; rfl, ?_⟩
  rw [withObject, objectType, recoveredType, outcome_bind_of_ok (outcome_get e), known]
  rfl

theorem withObject_of_unknown {e : Environment} (unknown : e.recovered.lookup objectName = none) :
    e.objectId = ⟨e.store.types.size⟩ ∧ e.withObject = { e with
      store := (e.store.addType (.ofName objectName)).2
      recovered := (objectName, ⟨e.store.types.size⟩) :: e.recovered } := by
  refine ⟨by rw [objectId, unknown]; rfl, ?_⟩
  rw [withObject, objectType, recoveredType, outcome_bind_of_ok (outcome_get e), unknown]
  rfl

section Rooted

variable {e e' : Environment}

theorem IsRooted.refl (e : Environment) : e.IsRooted e := .inl rfl

theorem outcome_objectType (rooted : e.IsRooted e') :
    outcome objectType e' = (.ok e.objectId, e.withObject) := by
  have answer : ∀ {e'' : Environment}, e''.recovered.lookup objectName = some e.objectId →
      outcome objectType e'' = (.ok e.objectId, e'') := by
    intro e'' known
    rw [objectType, recoveredType, outcome_bind_of_ok (outcome_get e''), known]
    rfl
  cases known : e.recovered.lookup objectName with
  | some t =>
    obtain ⟨place, same⟩ := withObject_of_known known
    have rooted : e' = e := rooted.elim id fun h => h.trans same
    rw [rooted, answer (by rw [known, place]), same]
  | none =>
    obtain ⟨place, made⟩ := withObject_of_unknown known
    rcases rooted with rfl | rfl
    · rw [made, place, objectType, recoveredType, outcome_bind_of_ok (outcome_get _), known]
      rfl
    · rw [answer (by rw [made, place, List.lookup_cons_self])]

/-- A type has the same properties in both environments, as far as a type that is not there yet has
the properties of the type above all others. -/
theorem property_eq (rooted : e.IsRooted e') {β : Type} (property : TypeBinding → β)
    (same : property (.ofName objectName) = property {}) (t : TypeId) :
    property (e'.store.type t) = property (e.store.type t) := by
  rcases rooted with rfl | rfl
  · rfl
  · cases known : e.recovered.lookup objectName with
    | some u => rw [(withObject_of_known known).2]
    | none =>
      rw [(withObject_of_unknown known).2]
      show property ((e.store.addType (.ofName objectName)).2.type t) = _
      rcases Store.type_addType_cases e.store (.ofName objectName) t with
        ⟨-, h⟩ | ⟨at_end, h⟩ | ⟨outside, h⟩
      · rw [h]
      · rw [h, same, Store.type_of_size_le (Nat.le_of_eq at_end.symm)]
      · rw [h, Store.type_of_size_le (Nat.le_of_lt outside)]

theorem declarationOfType_eq (rooted : e.IsRooted e') (t : TypeId) :
    e'.store.declarationOfType t = e.store.declarationOfType t := by
  have generic := property_eq rooted TypeBinding.genericType rfl t
  rw [Store.declarationOfType, Store.declarationOfType, generic]

theorem IsRooted.grows (rooted : e.IsRooted e') : e.Grows e' := by
  rcases rooted with rfl | rfl
  · exact .refl e'
  · exact keeps_objectType e (.refl e)

end Rooted

/-! ## Direct supertypes -/

/-- The direct supertypes of a type. A type variable has its bounds, and a type variable without
bounds or an array has the type above all others. -/
def supertypesOf (e : Environment) (t : TypeId) : List (Option TypeId) :=
  let b := e.store.type t
  if b.isTypeVariable then if b.bounds.isEmpty then [some e.objectId] else b.bounds
  else match b.superclass with
    | some up => some up :: b.interfaces
    | none => if b.isArray then some e.objectId :: b.interfaces else b.interfaces

/-- The supertypes of a type are the same all the way. -/
theorem outcome_supertypes {e e' : Environment} (rooted : e.IsRooted e') (t : TypeId) :
    ∃ e'', outcome (supertypes t) e' = (.ok (e.supertypesOf t), e'') ∧ e.IsRooted e'' := by
  have object := outcome_objectType rooted
  have isTypeVariable := property_eq rooted TypeBinding.isTypeVariable rfl t
  have isArray := property_eq rooted TypeBinding.isArray rfl t
  have bounds := property_eq rooted TypeBinding.bounds rfl t
  have superclass := property_eq rooted TypeBinding.superclass rfl t
  have interfaces := property_eq rooted TypeBinding.interfaces rfl t
  have read : outcome (EnvironmentM.read Environment.store) e' = (.ok e'.store, e') := rfl
  rw [supertypes, outcome_bind_of_ok read, supertypesOf]
  simp only [isTypeVariable, isArray, bounds, superclass, interfaces]
  have made : e.IsRooted e.withObject := .inr rfl
  by_cases typeVariable : (e.store.type t).isTypeVariable = true
  · rw [if_pos typeVariable, if_pos typeVariable]
    by_cases unbounded : (e.store.type t).bounds.isEmpty = true
    · rw [if_pos unbounded, if_pos unbounded, outcome_bind_of_ok object]
      exact ⟨e.withObject, rfl, made⟩
    · rw [if_neg unbounded, if_neg unbounded]
      exact ⟨e', rfl, rooted⟩
  · rw [if_neg typeVariable, if_neg typeVariable]
    cases (e.store.type t).superclass with
    | some up => exact ⟨e', rfl, rooted⟩
    | none =>
      dsimp only
      by_cases array : (e.store.type t).isArray = true
      · rw [if_pos array, if_pos array, outcome_bind_of_ok object]
        exact ⟨e.withObject, rfl, made⟩
      · rw [if_neg array, if_neg array]
        exact ⟨e', rfl, rooted⟩

theorem none_notMem_supertypesOf {e : Environment} {t : TypeId}
    (listed : none ∉ if (e.store.type t).isTypeVariable then (e.store.type t).bounds
      else (e.store.type t).interfaces) : none ∉ e.supertypesOf t := by
  unfold supertypesOf
  dsimp only
  split
  · next isVariable =>
    rw [if_pos isVariable] at listed
    split
    · simp
    · exact listed
  · next other =>
    rw [if_neg other] at listed
    split
    · simpa using listed
    · split
      · simpa using listed
      · exact listed

/-- A direct supertype is the type above all others, or one that the type leads to. -/
theorem eq_objectId_or_mem_links {e : Environment} {t up : TypeId}
    (h : some up ∈ e.supertypesOf t) : up = e.objectId ∨ up ∈ (e.store.type t).links := by
  have listed : ∀ ups, some up ∈ some e.objectId :: ups → up = e.objectId ∨ some up ∈ ups := by
    intro ups h
    simpa using h
  have bound : some up ∈ (e.store.type t).bounds → up ∈ (e.store.type t).links :=
    fun h => by simp [TypeBinding.links, h]
  have interface : some up ∈ (e.store.type t).interfaces → up ∈ (e.store.type t).links :=
    fun h => by simp [TypeBinding.links, h]
  unfold supertypesOf at h
  dsimp only at h
  split at h
  · split at h
    · exact (listed [] h).imp_right (by simp)
    · exact .inr (bound h)
  · split at h
    · next superclass =>
      rcases List.mem_cons.1 h with same | h
      · exact .inr (by simp [TypeBinding.links, superclass, Option.some.inj same])
      · exact .inr (interface h)
    · split at h
      · exact (listed _ h).imp_right interface
      · exact .inr (interface h)

/-- The declaration `u` is the one of a direct supertype of the declaration `t`. -/
def IsBelow (e : Environment) (t u : TypeId) : Prop :=
  ∃ up, some up ∈ e.supertypesOf t ∧ e.store.declarationOfType up = u

/-- The declarations of the direct supertypes of a declaration, in their order. -/
def declarationsAbove (e : Environment) (t : TypeId) : List TypeId :=
  (e.supertypesOf t).filterMap fun up => up.map e.store.declarationOfType

theorem mem_declarationsAbove {e : Environment} {t u : TypeId} :
    u ∈ e.declarationsAbove t ↔ e.IsBelow t u := by
  rw [declarationsAbove, List.mem_filterMap]
  constructor
  · rintro ⟨up, member, same⟩
    obtain ⟨up, rfl, rfl⟩ := Option.map_eq_some_iff.1 same
    exact ⟨up, member, rfl⟩
  · rintro ⟨up, member, rfl⟩
    exact ⟨some up, member, rfl⟩

/-- The declaration `u` stands above the declaration `t`, or is the same. -/
def Reaches (e : Environment) : TypeId → TypeId → Prop :=
  Relation.ReflTransGen e.IsBelow

/-! ## Closed environments -/

section Closed

variable {e : Environment} (closed : e.Closed)

include closed

theorem objectId_le : e.objectId.index ≤ e.store.types.size := by
  cases known : e.recovered.lookup objectName with
  | some t =>
    rw [(withObject_of_known known).1]
    exact Nat.le_of_lt (closed.recovered _ (mem_of_lookup known))
  | none => exact Nat.le_of_eq (congrArg TypeId.index (withObject_of_unknown known).1)

theorem index_declarationOfType_le {t : TypeId} (h : t.index ≤ e.store.types.size) :
    (e.store.declarationOfType t).index ≤ e.store.types.size := by
  rw [Store.declarationOfType]
  cases generic : (e.store.type t).genericType with
  | none => exact h
  | some u => exact Nat.le_of_lt (closed.store.types t u (by simp [TypeBinding.links, generic]))

/-- Only the type above all others may have no place in the store yet. -/
theorem IsBelow.index_le {t u : TypeId} (h : e.IsBelow t u) : u.index ≤ e.store.types.size := by
  obtain ⟨up, member, rfl⟩ := h
  refine index_declarationOfType_le closed ?_
  rcases eq_objectId_or_mem_links member with rfl | link
  · exact objectId_le closed
  · exact Nat.le_of_lt (closed.store.types t up link)

theorem Reaches.index_le {t u : TypeId} (h : e.Reaches t u) (ht : t.index ≤ e.store.types.size) :
    u.index ≤ e.store.types.size := by
  cases h with
  | refl => exact ht
  | tail _ last => exact IsBelow.index_le closed last

end Closed

end Environment

end JavaScope
