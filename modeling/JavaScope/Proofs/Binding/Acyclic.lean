import Mathlib.Data.Finset.Card
import Mathlib.Logic.Relation
import JavaScope.Binding.Signature
import JavaScope.Proofs.Binding.Store

/-!
# Stores without circles

In a store whose types neither inherit from themselves nor lie in themselves nor are erased to
themselves, every chain of types ends before its fuel does. So every binding has a signature, if no
type is missing that it is made from.
-/

namespace JavaScope

/-! ## Computations that answer -/

section Answers

variable {α β : Type}

/-- The computation comes to an answer. -/
def Answers (x : Except Fault α) : Prop :=
  ∃ a, x = .ok a

namespace Answers

protected theorem ok (a : α) : Answers (.ok a) :=
  ⟨a, rfl⟩

protected theorem bind {x : Except Fault α} {f : α → Except Fault β} (h : Answers x)
    (h' : ∀ a, x = .ok a → Answers (f a)) : Answers (x >>= f) := by
  obtain ⟨a, rfl⟩ := h
  exact h' a rfl

protected theorem ite {c : Prop} [Decidable c] {x y : Except Fault α} (h : c → Answers x)
    (h' : ¬c → Answers y) : Answers (if c then x else y) := by
  split
  · next hc => exact h hc
  · next hc => exact h' hc

protected theorem needed {link : Option α} (h : link ≠ none) : Answers (needed link) := by
  obtain ⟨a, rfl⟩ := Option.ne_none_iff_exists'.1 h
  exact .ok a

protected theorem mapM {xs : List α} {f : α → Except Fault β} (h : ∀ a ∈ xs, Answers (f a)) :
    Answers (xs.mapM f) := by
  induction xs with
  | nil => exact .ok []
  | cons a xs ih =>
    rw [List.mapM_cons]
    have rest := ih fun a' ha' => h a' (List.mem_cons_of_mem a ha')
    exact .bind (h a List.mem_cons_self) fun b _ => .bind rest fun bs _ => .ok (b :: bs)

end Answers

end Answers

/-! ## Chains that end -/

/-- What holds of a type as soon as it holds, with one unit of fuel less, of all types that come next
holds with more fuel than there are types. -/
theorem holds_of_acyclic {next : TypeId → TypeId → Prop} {size : Nat}
    (acyclic : ∀ t, ¬ Relation.TransGen next t t) (inside : ∀ t u, next t u → t.index < size)
    {P : Nat → TypeId → Prop} (step : ∀ fuel t, (∀ u, next t u → P fuel u) → P (fuel + 1) t)
    {fuel : Nat} (enough : size < fuel) (t : TypeId) : P fuel t := by
  classical
  -- the types on the way to `t` are different ones, and each of them has used up one unit
  have along : ∀ fuel t (passed : Finset Nat),
      (∀ i ∈ passed, i < size ∧ Relation.TransGen next ⟨i⟩ t) → size < fuel + passed.card →
        P fuel t := by
    intro fuel
    induction fuel with
    | zero =>
      intro t passed way left
      have few : passed.card ≤ (Finset.range size).card :=
        Finset.card_le_card fun i hi => Finset.mem_range.2 (way i hi).1
      rw [Finset.card_range] at few
      omega
    | succ fuel ih =>
      intro t passed way left
      refine step fuel t fun u link => ih u (insert t.index passed) ?_ ?_
      · intro i hi
        rcases Finset.mem_insert.1 hi with rfl | hi
        · exact ⟨inside t u link, .single link⟩
        · exact ⟨(way i hi).1, (way i hi).2.tail link⟩
      · have new : t.index ∉ passed := fun hi => acyclic t (way t.index hi).2
        rw [Finset.card_insert_of_notMem new]
        omega
  exact along fuel t ∅ (by simp) (by simpa using enough)

/-- Links that lead from later types to earlier ones only make no circle. -/
theorem acyclic_of_lt {next : TypeId → TypeId → Prop}
    (earlier : ∀ t u, next t u → u.index < t.index) (t : TypeId) : ¬ Relation.TransGen next t t := by
  have below : ∀ u, Relation.TransGen next t u → u.index < t.index := by
    intro u way
    induction way with
    | single link => exact earlier t _ link
    | tail _ link ih => exact Nat.lt_trans (earlier _ _ link) ih
  exact fun way => Nat.lt_irrefl _ (below t way)

/-! ## Links between types -/

namespace Store

/-- `u` is the declaration of the superclass or of an interface of `t`. -/
def Inherits (s : Store) (t u : TypeId) : Prop :=
  ∃ up, ((s.type t).superclass = some up ∨ some up ∈ (s.type t).interfaces) ∧
    s.declarationOfType up = u

/-- The type `t` is declared in `u`. -/
def LiesIn (s : Store) (t u : TypeId) : Prop :=
  (s.type t).declaringClass = some u

/-- The erasure of `t` is made from the one of `u`. -/
def ErasesTo (s : Store) (t u : TypeId) : Prop :=
  match (s.type t).kind with
  | .typeParameter | .wildcard => (s.type t).bounds.head? = some (some u)
  | .array => (s.type t).elementType = some u
  | _ => (s.type t).genericType = some u

/-- No type inherits from itself, lies in itself or is erased to itself, and none is missing where one
is needed. -/
structure IsSound (s : Store) : Prop where
  inherits : ∀ t, ¬ Relation.TransGen s.Inherits t t
  lies : ∀ t, ¬ Relation.TransGen s.LiesIn t t
  erases : ∀ t, ¬ Relation.TransGen s.ErasesTo t t
  interfaces : ∀ t, none ∉ (s.type t).interfaces
  bounds : ∀ t, none ∉ (s.type t).bounds
  elements : ∀ t, (s.type t).kind = .array → (s.type t).elementType ≠ none
  parameters : ∀ m, none ∉ (s.method m).parameterTypes

variable {s : Store}

theorem index_lt_of_type_ne {t : TypeId} (h : s.type t ≠ {}) : t.index < s.types.size := by
  by_contra outside
  exact h (type_of_size_le (Nat.le_of_not_lt outside))

theorem Inherits.index_lt {t u : TypeId} (h : s.Inherits t u) : t.index < s.types.size := by
  refine index_lt_of_type_ne fun bare => ?_
  obtain ⟨up, link, -⟩ := h
  rw [bare] at link
  simp at link

theorem LiesIn.index_lt {t u : TypeId} (h : s.LiesIn t u) : t.index < s.types.size := by
  refine index_lt_of_type_ne fun bare => ?_
  rw [LiesIn, bare] at h
  cases h

theorem ErasesTo.index_lt {t u : TypeId} (h : s.ErasesTo t u) : t.index < s.types.size := by
  refine index_lt_of_type_ne fun bare => ?_
  rw [ErasesTo, bare] at h
  cases h

/-! ## What is always told -/

namespace IsSound

theorem answers_erasure (sound : s.IsSound) (t : TypeId) : Answers (s.erasure t) := by
  refine holds_of_acyclic (P := fun fuel t => Answers (s.erasureWith fuel t)) sound.erases
    (fun _ _ link => link.index_lt) ?_ (Nat.lt_succ_of_le ?_) t
  · intro fuel t next
    unfold ErasesTo at next
    unfold erasureWith
    dsimp only
    split
    iterate 2
      next kind =>
      rw [kind] at next
      split
      · exact .ok objectName
      · next bound rest bounds =>
        have member : bound ∈ (s.type t).bounds := by simp [bounds]
        have given : bound ≠ none := fun missing => sound.bounds t (missing ▸ member)
        exact .bind (.needed given) fun u hu => next u (by simp [bounds, needed_eq_ok.1 hu])
    · next kind =>
      rw [kind] at next
      exact .bind (.needed (sound.elements t kind)) fun u hu =>
        .bind (next u (needed_eq_ok.1 hu)) fun x _ => .ok _
    · split
      · next generic => exact next _ (by simpa using generic)
      · exact .ok _
  · unfold size
    omega

/-- A binding has a signature. -/
theorem answers_signature (sound : s.IsSound) (b : BindingId) : Answers (s.signature b) := by
  cases b with
  | type t => exact .ok _
  | «variable» v => exact .ok _
  | method m =>
    have given : ∀ each ∈ (s.method m).parameterTypes, each ≠ none :=
      fun each member missing => sound.parameters m (missing ▸ member)
    exact .bind (.mapM fun each member => .bind (.needed (given each member)) fun t _ =>
      sound.answers_erasure t) fun _ _ => .ok _

end IsSound

/-! ## Stores that list their types in order -/

/-- What holds of all types that a store lists, and of the type without any property, holds of every
type. -/
theorem forall_of_listed (s : Store) {P : TypeId → Prop} (listed : ∀ i < s.types.size, P ⟨i⟩)
    (bare : ∀ t, s.type t = {} → P t) (t : TypeId) : P t := by
  by_cases inside : t.index < s.types.size
  · exact listed t.index inside
  · exact bare t (type_of_size_le (Nat.le_of_not_lt inside))

/-- Types whose supertypes are listed before them do not inherit in circles. -/
theorem not_inherits_of_listed (earlier : ∀ i < s.types.size,
    ∀ up ∈ (s.type ⟨i⟩).superclass.toList ++ (s.type ⟨i⟩).interfaces.filterMap id,
      (s.declarationOfType up).index < i) (t : TypeId) : ¬ Relation.TransGen s.Inherits t t := by
  refine acyclic_of_lt (fun t u link => ?_) t
  have inside := link.index_lt
  obtain ⟨up, link, rfl⟩ := link
  exact earlier t.index inside up (by simpa using link)

/-- Types that are listed after the types around them do not lie in circles. -/
theorem not_liesIn_of_listed (earlier : ∀ i < s.types.size,
    ∀ u ∈ (s.type ⟨i⟩).declaringClass.toList, u.index < i) (t : TypeId) :
    ¬ Relation.TransGen s.LiesIn t t := by
  refine acyclic_of_lt (fun t u link => ?_) t
  exact earlier t.index link.index_lt u (Option.mem_toList.2 link)

/-- Types that are listed after the types they are made from are not erased in circles. -/
theorem not_erasesTo_of_listed (earlier : ∀ i < s.types.size,
    ∀ u ∈ (s.type ⟨i⟩).bounds.filterMap id ++ (s.type ⟨i⟩).elementType.toList ++
      (s.type ⟨i⟩).genericType.toList, u.index < i) (t : TypeId) :
    ¬ Relation.TransGen s.ErasesTo t t := by
  refine acyclic_of_lt (fun t u link => ?_) t
  have inside := link.index_lt
  apply earlier t.index inside u
  unfold ErasesTo at link
  split at link
  · simp [List.mem_of_head? link]
  · simp [List.mem_of_head? link]
  · simp [link]
  · simp [link]

end Store

end JavaScope
