import Mathlib.Data.Finset.Card
import Mathlib.Data.Finset.Range
import Mathlib.Logic.Relation
import JavaScope.Binding.Store

/-!
# Traversals

A search through a hierarchy visits one declaration after the other and leaves alone those that it
visited before. The declarations above a visited one wait with the others: in front of them if the
search goes depth first, behind them if it goes breadth first. Either way it finds what can be
reached, each declaration once; only the order is another one.
-/

namespace JavaScope

/-! ## Orders -/

/-- A search with some declarations visited and some waiting finds these, in this order. What comes
next after a declaration that it visits is enqueued with those that wait. -/
inductive Traversal (next : TypeId → List TypeId)
    (enqueue : List TypeId → List TypeId → List TypeId) :
    List TypeId → List TypeId → List TypeId → Prop
  | done (visited : List TypeId) : Traversal next enqueue visited [] []
  | skip {visited waiting found : List TypeId} {d : TypeId} (seen : d ∈ visited)
      (rest : Traversal next enqueue visited waiting found) :
      Traversal next enqueue visited (d :: waiting) found
  | visit {visited waiting found : List TypeId} {d : TypeId} (fresh : d ∉ visited)
      (rest : Traversal next enqueue (d :: visited) (enqueue (next d) waiting) found) :
      Traversal next enqueue visited (d :: waiting) (d :: found)

/-- What comes next goes before all that waits. -/
abbrev DepthFirst (next : TypeId → List TypeId) :=
  Traversal next fun ups waiting => ups ++ waiting

/-- What comes next goes behind all that waits. -/
abbrev BreadthFirst (next : TypeId → List TypeId) :=
  Traversal next fun ups waiting => waiting ++ ups

section Orders

variable {next : TypeId → List TypeId} {enqueue : List TypeId → List TypeId → List TypeId}
  {visited before waiting waiting' found found' : List TypeId}

theorem Traversal.skip_all (seen : ∀ u ∈ before, u ∈ visited)
    (rest : Traversal next enqueue visited waiting found) :
    Traversal next enqueue visited (before ++ waiting) found := by
  induction before with
  | nil => exact rest
  | cons u before ih =>
    obtain ⟨here, further⟩ := List.forall_mem_cons.1 seen
    exact .skip here (ih further)

/-- A second search goes on with what the first one visited. -/
theorem DepthFirst.append (h : DepthFirst next visited waiting found)
    (h' : DepthFirst next (found.reverse ++ visited) waiting' found') :
    DepthFirst next visited (waiting ++ waiting') (found ++ found') := by
  induction h with
  | done => exact h'
  | skip seen _ ih => exact .skip seen (ih h')
  | visit fresh _ ih =>
    refine .visit fresh ?_
    rw [List.reverse_cons, List.append_assoc, List.singleton_append] at h'
    have rest := ih h'
    rw [List.append_assoc] at rest
    exact rest

end Orders

/-! ## Explored declarations -/

/-- What a search found from some declarations on, which left alone what was visited before: those
that can be reached, without a gap. -/
structure Explored (next : TypeId → TypeId → Prop) (visited starts found : List TypeId) : Prop where
  nodup : found.Nodup
  new : ∀ u ∈ found, u ∉ visited
  reached : ∀ u ∈ found, ∃ d ∈ starts, Relation.ReflTransGen next d u
  starts : ∀ d ∈ starts, d ∈ found ∨ d ∈ visited
  closed : ∀ u ∈ found, ∀ w, next u w → w ∈ found ∨ w ∈ visited

namespace Explored

variable {next : TypeId → TypeId → Prop} {visited starts waiting found : List TypeId} {d : TypeId}

theorem nil (next : TypeId → TypeId → Prop) (visited : List TypeId) : Explored next visited [] [] :=
  ⟨.nil, nofun, nofun, nofun, nofun⟩

/-- A declaration that was visited is left alone. -/
theorem skip (seen : d ∈ visited) (h : Explored next visited waiting found) :
    Explored next visited (d :: waiting) found where
  nodup := h.nodup
  new := h.new
  reached u hu := by
    obtain ⟨s, hs, way⟩ := h.reached u hu
    exact ⟨s, List.mem_cons_of_mem d hs, way⟩
  starts := List.forall_mem_cons.2 ⟨.inr seen, h.starts⟩
  closed := h.closed

/-- A new declaration is visited, and what comes next after it waits with the others. -/
theorem visit (fresh : d ∉ visited) (queued : ∀ u, u ∈ starts ↔ next d u ∨ u ∈ waiting)
    (h : Explored next (d :: visited) starts found) :
    Explored next visited (d :: waiting) (d :: found) := by
  have before : ∀ {u}, u ∈ found ∨ u ∈ d :: visited → u ∈ d :: found ∨ u ∈ visited := by
    intro u hu
    simp only [List.mem_cons] at hu ⊢
    tauto
  refine ⟨?_, ?_, ?_, ?_, ?_⟩
  · exact List.nodup_cons.2 ⟨fun hd => h.new d hd List.mem_cons_self, h.nodup⟩
  · intro u hu
    rcases List.mem_cons.1 hu with rfl | hu
    · exact fresh
    · exact fun seen => h.new u hu (List.mem_cons_of_mem d seen)
  · intro u hu
    rcases List.mem_cons.1 hu with rfl | hu
    · exact ⟨u, List.mem_cons_self, .refl⟩
    · obtain ⟨w, hw, way⟩ := h.reached u hu
      rcases (queued w).1 hw with link | waits
      · exact ⟨d, List.mem_cons_self, .head link way⟩
      · exact ⟨w, List.mem_cons_of_mem d waits, way⟩
  · intro u hu
    rcases List.mem_cons.1 hu with rfl | hu
    · exact .inl List.mem_cons_self
    · exact before (h.starts u ((queued u).2 (.inr hu)))
  · intro u hu w link
    rcases List.mem_cons.1 hu with rfl | hu
    · exact before (h.starts w ((queued w).2 (.inl link)))
    · exact before (h.closed u hu w link)

/-- A search that starts afresh finds what can be reached. -/
theorem mem_iff (h : Explored next [] [d] found) (u : TypeId) :
    u ∈ found ↔ Relation.ReflTransGen next d u := by
  constructor
  · intro hu
    obtain ⟨d', hd', way⟩ := h.reached u hu
    rwa [List.mem_singleton.1 hd'] at way
  · intro way
    induction way with
    | refl => exact (h.starts d (List.mem_singleton_self d)).resolve_right nofun
    | tail _ link ih => exact (h.closed _ ih _ link).resolve_right nofun

end Explored

/-- Whatever the order, a search explores what comes next. -/
theorem Traversal.explored {next : TypeId → List TypeId}
    {enqueue : List TypeId → List TypeId → List TypeId} {link : TypeId → TypeId → Prop}
    {visited waiting found : List TypeId} (links : ∀ {t u}, u ∈ next t ↔ link t u)
    (queued : ∀ {ups waiting u}, u ∈ enqueue ups waiting ↔ u ∈ ups ∨ u ∈ waiting)
    (h : Traversal next enqueue visited waiting found) : Explored link visited waiting found := by
  induction h with
  | done visited => exact .nil link visited
  | skip seen _ ih => exact ih.skip seen
  | visit fresh _ ih => exact ih.visit fresh fun u => by rw [queued, links]

/-! ## Declarations that remain -/

/-- How many declarations of a finite set were not visited. -/
def remaining (among : Finset TypeId) (visited : List TypeId) : Nat :=
  (among.filter (· ∉ visited)).card

theorem remaining_le (among : Finset TypeId) (visited : List TypeId) :
    remaining among visited ≤ among.card :=
  Finset.card_filter_le _ _

theorem remaining_cons {among : Finset TypeId} {visited : List TypeId} {d : TypeId}
    (inside : d ∈ among) (fresh : d ∉ visited) :
    remaining among (d :: visited) < remaining among visited := by
  refine Finset.card_lt_card (Finset.ssubset_iff_of_subset ?_ |>.2 ⟨d, ?_, ?_⟩)
  · intro u hu
    simp only [Finset.mem_filter, List.mem_cons, not_or] at hu ⊢
    exact ⟨hu.1, hu.2.2⟩
  · simpa using ⟨inside, fresh⟩
  · simp

theorem remaining_append_le (among : Finset TypeId) (more visited : List TypeId) :
    remaining among (more ++ visited) ≤ remaining among visited := by
  refine Finset.card_le_card fun u hu => ?_
  simp only [Finset.mem_filter, List.mem_append, not_or] at hu ⊢
  exact ⟨hu.1, hu.2.2⟩

/-- The types with a place in a store of this size, and the place of the next one. -/
def typesUpTo (size : Nat) : Finset TypeId :=
  (Finset.range (size + 1)).image TypeId.mk

theorem mem_typesUpTo {size : Nat} {t : TypeId} : t ∈ typesUpTo size ↔ t.index ≤ size := by
  obtain ⟨i⟩ := t
  simp only [typesUpTo, Finset.mem_image, Finset.mem_range, TypeId.mk.injEq, exists_eq_right]
  exact Nat.lt_succ_iff

theorem card_typesUpTo_le (size : Nat) : (typesUpTo size).card ≤ size + 1 :=
  Finset.card_image_le.trans (Finset.card_range _).le

end JavaScope
