import Mathlib.Data.Finset.Card
import JavaScope.Proofs.Environment.Growth

/-!
# Fuel that is enough

A computation that follows the links of types carries fuel, and gives up when it has none left. Among
the types of a closed store it answers more with every unit of fuel until nothing changes any more,
which is the case after as many units as there are types. So all stores that have grown from a closed
one give the same answers below its types, also that a chain never ends.
-/

namespace JavaScope

/-! ## Answers that refine others -/

variable {α β : Type}

/-- Unless the first computation gives up, the second one comes to the same. -/
def Refines (x y : Except Fault α) : Prop :=
  x ≠ .error .endless → y = x

namespace Refines

protected theorem of_eq {x y : Except Fault α} (h : x = y) : Refines x y :=
  fun _ => h.symm

protected theorem refl (x : Except Fault α) : Refines x x :=
  .of_eq rfl

protected theorem endless (y : Except Fault α) : Refines (.error .endless) y :=
  fun h => absurd rfl h

theorem eq_ok {a : α} {y : Except Fault α} (h : Refines (.ok a) y) : y = .ok a :=
  h nofun

protected theorem antisymm {x y : Except Fault α} (h : Refines x y) (h' : Refines y x) : x = y := by
  by_cases hx : x = .error .endless
  · by_cases hy : y = .error .endless
    · rw [hx, hy]
    · exact h' hy
  · exact (h hx).symm

protected theorem bind {x y : Except Fault α} {f g : α → Except Fault β} (h : Refines x y)
    (h' : ∀ a, x = .ok a → Refines (f a) (g a)) : Refines (x >>= f) (y >>= g) := by
  intro ends
  cases hx : x with
  | error fault =>
    subst hx
    have same : y = .error fault := h fun endless => ends (by rw [endless]; rfl)
    rw [same]
    rfl
  | ok a =>
    subst hx
    rw [h.eq_ok]
    exact h' a rfl ends

protected theorem ite {c : Prop} [Decidable c] {x y x' y' : Except Fault α} (h : c → Refines x y)
    (h' : ¬c → Refines x' y') : Refines (if c then x else x') (if c then y else y') := by
  split
  · next hc => exact h hc
  · next hc => exact h' hc

protected theorem mapM {xs : List α} {f g : α → Except Fault β} (h : ∀ a ∈ xs, Refines (f a) (g a)) :
    Refines (xs.mapM f) (xs.mapM g) := by
  induction xs with
  | nil => exact .refl _
  | cons a xs ih =>
    rw [List.mapM_cons, List.mapM_cons]
    refine .bind (h a List.mem_cons_self) fun b _ => .bind ?_ fun bs _ => .refl _
    exact ih fun a' ha' => h a' (List.mem_cons_of_mem a ha')

protected theorem anyM {xs : List α} {f g : α → Except Fault Bool}
    (h : ∀ a ∈ xs, Refines (f a) (g a)) : Refines (xs.anyM f) (xs.anyM g) := by
  induction xs with
  | nil => exact .refl _
  | cons a xs ih =>
    refine .bind (h a List.mem_cons_self) fun found _ => ?_
    cases found
    · exact ih fun a' ha' => h a' (List.mem_cons_of_mem a ha')
    · exact .refl _

end Refines

/-! ## Rounds of a computation -/

/-- A computation on finitely many points, round after round, that answers more in every round and
goes on in the same way from equal rounds, does not change after as many rounds as there are
points. -/
theorem settles {size : Nat} {f : Nat → Nat → Except Fault α}
    (more : ∀ n, ∀ i < size, Refines (f n i) (f (n + 1) i))
    (onward : ∀ n m, (∀ i < size, f n i = f m i) → ∀ i < size, f (n + 1) i = f (m + 1) i)
    {n : Nat} (enough : size ≤ n) : ∀ i < size, f n i = f size i := by
  classical
  let answered (n : Nat) : Finset Nat := (Finset.range size).filter fun i => f n i ≠ .error .endless
  have grows : ∀ n, answered n ⊆ answered (n + 1) := by
    intro n i hi
    obtain ⟨inside, ends⟩ := Finset.mem_filter.1 hi
    refine Finset.mem_filter.2 ⟨inside, ?_⟩
    rw [more n i (Finset.mem_range.1 inside) ends]
    exact ends
  -- a round that answers nothing new is the last one that changes anything
  have settled : ∀ n, answered n = answered (n + 1) → ∀ k ≥ n, ∀ i < size, f k i = f n i := by
    intro n same
    have next : ∀ i < size, f (n + 1) i = f n i := by
      intro i hi
      by_cases ends : f n i = .error .endless
      · by_contra changed
        have new : i ∈ answered (n + 1) :=
          Finset.mem_filter.2 ⟨Finset.mem_range.2 hi, fun ends' => changed (ends'.trans ends.symm)⟩
        rw [← same] at new
        exact (Finset.mem_filter.1 new).2 ends
      · exact more n i hi ends
    intro k hk
    induction k, hk using Nat.le_induction with
    | base => exact fun _ _ => rfl
    | succ k _ ih => exact fun i hi => (onward k n ih i hi).trans (next i hi)
  -- before that, every round answers at one more point
  have counts : ∀ n, (∃ m < n, answered m = answered (m + 1)) ∨ n ≤ (answered n).card := by
    intro n
    induction n with
    | zero => exact .inr (Nat.zero_le _)
    | succ n ih =>
      rcases ih with ⟨m, hm, same⟩ | few
      · exact .inl ⟨m, Nat.lt_succ_of_lt hm, same⟩
      · by_cases same : answered n = answered (n + 1)
        · exact .inl ⟨n, Nat.lt_succ_self n, same⟩
        · have strict := Finset.card_lt_card ((grows n).ssubset_of_ne same)
          exact .inr (by omega)
  rcases counts (size + 1) with ⟨m, hm, same⟩ | many
  · intro i hi
    rw [settled m same n (by omega) i hi, settled m same size (by omega) i hi]
  · have bound := Finset.card_filter_le (Finset.range size) fun i => f (size + 1) i ≠ .error .endless
    rw [Finset.card_range] at bound
    exact absurd (Nat.le_trans many bound) (by omega)

/-! ## Chains of types -/

/-- A computation from a type on, with fuel, that follows the links of a store: in stores that have
grown from a closed one it depends on the types of that one only. -/
structure Store.Follows (s₀ : Store) (f : Store → Nat → TypeId → Except Fault α) : Prop where
  start : ∀ {s s'}, s₀.Grows s → s₀.Grows s' → ∀ fuel t, s₀.Has (.type t) →
    Refines (f s 0 t) (f s' fuel t)
  step : ∀ {s s'}, s₀.Grows s → s₀.Grows s' → ∀ {fuel fuel'},
    (∀ t, s₀.Has (.type t) → Refines (f s fuel t) (f s' fuel' t)) →
      ∀ t, s₀.Has (.type t) → Refines (f s (fuel + 1) t) (f s' (fuel' + 1) t)

namespace Store.Follows

variable {s₀ s s' : Store} {f : Store → Nat → TypeId → Except Fault α} {fuel fuel' : Nat} {t : TypeId}

/-- With more fuel, a grown store answers more. -/
theorem refines (follows : s₀.Follows f) (h : s₀.Grows s) (h' : s₀.Grows s') (le : fuel ≤ fuel')
    (ht : s₀.Has (.type t)) : Refines (f s fuel t) (f s' fuel' t) := by
  induction fuel generalizing fuel' t with
  | zero => exact follows.start h h' fuel' t ht
  | succ fuel ih =>
    obtain ⟨fuel', rfl⟩ : ∃ k, fuel' = k + 1 := ⟨fuel' - 1, by omega⟩
    exact follows.step h h' (fun u hu => ih (Nat.le_of_succ_le_succ le) hu) t ht

/-- Fuel for more types than there are changes nothing. -/
theorem enough (follows : s₀.Follows f) (h : s₀.Grows s) (le : s₀.types.size ≤ fuel)
    (ht : s₀.Has (.type t)) : f s fuel t = f s s₀.types.size t := by
  refine settles (f := fun fuel i => f s fuel ⟨i⟩) ?_ ?_ le t.index ht
  · intro n i hi
    exact follows.refines h h (Nat.le_succ n) hi
  · intro n m same i hi
    have forth : Refines (f s (n + 1) ⟨i⟩) (f s (m + 1) ⟨i⟩) :=
      follows.step h h (fun u hu => .of_eq (same u.index hu)) ⟨i⟩ hi
    have back : Refines (f s (m + 1) ⟨i⟩) (f s (n + 1) ⟨i⟩) :=
      follows.step h h (fun u hu => .of_eq (same u.index hu).symm) ⟨i⟩ hi
    exact forth.antisymm back

/-- All grown stores give the same answer. -/
theorem eq (follows : s₀.Follows f) (h : s₀.Grows s) (h' : s₀.Grows s')
    (le : s₀.types.size ≤ fuel) (le' : s₀.types.size ≤ fuel') (ht : s₀.Has (.type t)) :
    f s fuel t = f s' fuel' t := by
  have same : f s s₀.types.size t = f s' s₀.types.size t :=
    (follows.refines h h' (Nat.le_refl _) ht).antisymm (follows.refines h' h (Nat.le_refl _) ht)
  calc f s fuel t = f s s₀.types.size t := follows.enough h le ht
    _ = f s' s₀.types.size t := same
    _ = f s' fuel' t := (follows.enough h' le' ht).symm

end Store.Follows

end JavaScope
