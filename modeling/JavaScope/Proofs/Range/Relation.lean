import Mathlib.Data.Prod.Lex
import Mathlib.Data.List.Sort
import Mathlib.Order.Interval.Set.Basic
import JavaScope.Range.Relation

/-!
# The algebra of ranges

A location stands for the closed interval of its offsets: the predicates on two locations are
inclusions and intersections of intervals, so they fit together as those do. A location stands also
for the pair of its start and its end, and locations compare as these pairs do, start first.
-/

namespace JavaScope

namespace Location

variable {a b c : Location}

/-! ## Intervals of offsets -/

/-- The offsets of a location, its end among them. -/
def offsets (l : Location) : Set Nat :=
  Set.Icc l.start.offset l.stop.offset

/-- The locations have a single offset in common. -/
def Touches (a b : Location) : Prop :=
  ∃ offset, a.offsets ∩ b.offsets = {offset}

theorem offsets_inter (a b : Location) :
    a.offsets ∩ b.offsets =
      Set.Icc (max a.start.offset b.start.offset) (min a.stop.offset b.stop.offset) :=
  Set.Icc_inter_Icc

theorem offsets_nonempty (l : Location) : l.offsets.Nonempty :=
  Set.nonempty_Icc.2 l.start_le_stop

theorem covers_iff : a.covers b = true ↔ b.offsets ⊆ a.offsets := by
  rw [offsets, offsets, Set.Icc_subset_Icc_iff b.start_le_stop]
  simp [covers]

theorem intersects_iff : a.intersects b = true ↔ (a.offsets ∩ b.offsets).Nonempty := by
  have ha := a.start_le_stop
  have hb := b.start_le_stop
  simp only [offsets_inter, Set.nonempty_Icc, intersects, Bool.and_eq_true, decide_eq_true_eq]
  omega

theorem outside_iff : a.outside b = true ↔ ¬ (a.offsets ∩ b.offsets).Nonempty := by
  rw [outside, Bool.not_eq_true', ← Bool.not_eq_true, intersects_iff]

theorem touches_iff :
    a.Touches b ↔ max a.start.offset b.start.offset = min a.stop.offset b.stop.offset := by
  simp only [Touches, offsets_inter, Set.Icc_eq_singleton_iff]
  constructor
  · rintro ⟨offset, first, last⟩
    exact first.trans last.symm
  · intro same
    exact ⟨_, rfl, same.symm⟩

theorem same_iff_covers : a.same b = true ↔ a.covers b = true ∧ b.covers a = true := by
  simp only [same, Position.same, covers, Bool.and_eq_true, beq_iff_eq, decide_eq_true_eq]
  omega

theorem same_comm (a b : Location) : a.same b = b.same a := by
  rw [Bool.eq_iff_iff, same_iff_covers, same_iff_covers, and_comm]

theorem intersects_comm (a b : Location) : a.intersects b = b.intersects a := by
  rw [Bool.eq_iff_iff, intersects_iff, intersects_iff, Set.inter_comm]

theorem intersects_of_covers (h : a.covers b = true) : a.intersects b = true := by
  rw [intersects_iff, Set.inter_eq_right.2 (covers_iff.1 h)]
  exact b.offsets_nonempty

theorem intersects_mono (h : a.covers b = true) (shared : b.intersects c = true) :
    a.intersects c = true := by
  rw [intersects_iff] at shared ⊢
  exact shared.mono (Set.inter_subset_inter_left _ (covers_iff.1 h))

theorem outside_anti (h : a.covers b = true) (apart : a.outside c = true) :
    b.outside c = true := by
  rw [outside_iff] at apart ⊢
  exact fun shared => apart (shared.mono (Set.inter_subset_inter_left _ (covers_iff.1 h)))

/-! ## The five relations -/

theorem relation_comm (a b : Location) : b.relation a = (a.relation b).converse := by
  rw [relation, relation, same_comm b a, intersects_comm b a]
  by_cases same : a.same b = true
  · simp only [same, if_true, Relation.converse]
  · have apart : ¬ (a.covers b = true ∧ b.covers a = true) := fun h => same (same_iff_covers.2 h)
    by_cases forth : a.covers b = true
    · have back : ¬ b.covers a = true := fun back => apart ⟨forth, back⟩
      simp [same, forth, back, Relation.converse]
    · by_cases back : b.covers a = true
      · simp [same, forth, back, Relation.converse]
      · by_cases shared : a.intersects b = true <;>
          simp [same, forth, back, shared, Relation.converse]

theorem relation_eq_outside_iff : a.relation b = .outside ↔ a.outside b = true := by
  have covered : b.covers a = true → a.intersects b = true := fun h =>
    (intersects_comm a b).trans (intersects_of_covers h)
  have same : a.same b = true → a.intersects b = true := fun h =>
    intersects_of_covers (same_iff_covers.1 h).1
  rw [relation, outside, Bool.not_eq_true', ← Bool.not_eq_true]
  split
  · next h => simp [same h]
  · split
    · next h => simp [intersects_of_covers h]
    · split
      · next h => simp [covered h]
      · split <;> simp_all

theorem relation_eq_overlaps_iff :
    a.relation b = .overlaps ↔
      a.covers b = false ∧ b.covers a = false ∧ a.intersects b = true := by
  rw [relation]
  split
  · next h => simp [same_iff_covers.1 h]
  · split
    · next h => simp [h]
    · split
      · next h => simp [h]
      · split <;> simp_all

/-- Of two locations without a common offset, one comes before the other. -/
theorem isBefore_or_isAfter (h : a.relation b = .outside) :
    (a.isBefore b = true ∧ a.isAfter b = false) ∨ (a.isBefore b = false ∧ a.isAfter b = true) := by
  have ha := a.start_le_stop
  have hb := b.start_le_stop
  rw [relation_eq_outside_iff] at h
  simp only [outside, intersects, isBefore, isAfter, Bool.not_eq_true', Bool.and_eq_false_iff,
    decide_eq_false_iff_not, decide_eq_true_eq] at h ⊢
  omega

/-- Of two locations that overlap, the end of one lies inside the other, or they touch. -/
theorem endsInside_or_touches (h : a.relation b = .overlaps) :
    (a.endsInside b = true ∧ b.endsInside a = false ∧ ¬ a.Touches b) ∨
      (a.endsInside b = false ∧ b.endsInside a = true ∧ ¬ a.Touches b) ∨
        (a.endsInside b = false ∧ b.endsInside a = false ∧ a.Touches b) := by
  have ha := a.start_le_stop
  have hb := b.start_le_stop
  rw [relation_eq_overlaps_iff] at h
  simp only [covers, intersects, endsInside, touches_iff, Bool.and_eq_true, Bool.and_eq_false_iff,
    decide_eq_false_iff_not, decide_eq_true_eq] at h ⊢
  omega

/-! ## The order of locations -/

/-- The start and the end of a location, the start counting first. -/
def bounds (l : Location) : Nat ×ₗ Nat :=
  toLex (l.start.offset, l.stop.offset)

theorem lt_iff : a.lt b = true ↔ a.bounds < b.bounds := by
  simp [lt, bounds, Prod.Lex.toLex_lt_toLex]

theorem same_iff : a.same b = true ↔ a.bounds = b.bounds := by
  simp [same, Position.same, bounds]

theorem equal_iff (one : a.source = b.source) : a.equal b = true ↔ a.bounds = b.bounds := by
  rw [equal, one, ← same_iff]
  simp

theorem le_iff (one : a.source = b.source) : a.le b = true ↔ a.bounds ≤ b.bounds := by
  rw [le, Bool.or_eq_true, lt_iff, equal_iff one, le_iff_lt_or_eq]

theorem ge_iff : a.ge b = true ↔ b.bounds ≤ a.bounds := by
  rw [ge, Bool.not_eq_true', ← Bool.not_eq_true, lt_iff, not_lt]

theorem gt_iff (one : a.source = b.source) : a.gt b = true ↔ b.bounds < a.bounds := by
  rw [gt, Bool.and_eq_true, Bool.not_eq_true', Bool.not_eq_true', ← Bool.not_eq_true,
    ← Bool.not_eq_true, lt_iff, equal_iff one, not_lt, lt_iff_le_and_ne, ne_comm]

/-- Sorted locations have their bounds in order. -/
theorem pairwise_sort (ls : List Location) : ((sort ls).map bounds).Pairwise (· ≤ ·) := by
  have before (a b : Location) : (!b.lt a) = true ↔ a.bounds ≤ b.bounds := ge_iff
  have sorted : (sort ls).Pairwise fun a b => (!b.lt a) = true := by
    refine List.pairwise_mergeSort (fun a b c hab hbc => ?_) (fun a b => ?_) ls
    · exact (before a c).2 (((before a b).1 hab).trans ((before b c).1 hbc))
    · rw [Bool.or_eq_true, before, before]
      exact le_total _ _
  exact List.pairwise_map.2 (sorted.imp fun h => (before _ _).1 h)

theorem sort_perm (ls : List Location) : (sort ls).Perm ls :=
  List.mergeSort_perm ls _

/-- What is sorted does not depend on the places that locations had before. -/
theorem map_sort_eq_of_perm {ls ls' : List Location} (h : ls.Perm ls') :
    (sort ls).map bounds = (sort ls').map bounds := by
  refine List.Perm.eq_of_pairwise (fun _ _ _ _ => le_antisymm) (pairwise_sort ls)
    (pairwise_sort ls') ?_
  exact (((sort_perm ls).trans h).trans (sort_perm ls').symm).map bounds

/-! ## All laws together -/

/-- How the predicates on ranges fit together. -/
structure RelationLaws (a b c : Location) : Prop where
  covers_self : a.covers a = true
  covers_through : a.covers b = true → b.covers c = true → a.covers c = true
  covers_both : a.covers b = true ∧ b.covers a = true ↔ a.same b = true
  intersects_swap : a.intersects b = b.intersects a
  intersects_covered : a.covers b = true → a.intersects b = true
  outside_complement : a.outside b = !a.intersects b
  intersects_wider : a.covers b = true → b.intersects c = true → a.intersects c = true
  outside_narrower : a.covers b = true → a.outside c = true → b.outside c = true
  relation_converse : b.relation a = (a.relation b).converse
  outside_order : a.relation b = .outside →
    (a.isBefore b = true ∧ a.isAfter b = false) ∨ (a.isBefore b = false ∧ a.isAfter b = true)
  overlaps_ends : a.relation b = .overlaps →
    (a.endsInside b = true ∧ b.endsInside a = false ∧ ¬ a.Touches b) ∨
      (a.endsInside b = false ∧ b.endsInside a = true ∧ ¬ a.Touches b) ∨
        (a.endsInside b = false ∧ b.endsInside a = false ∧ a.Touches b)

/-- The six signs of comparison are those of the bounds. -/
structure OrderLaws (a b : Location) : Prop where
  eq : a.equal b = true ↔ a.bounds = b.bounds
  ne : a.equal b = false ↔ a.bounds ≠ b.bounds
  lt : a.lt b = true ↔ a.bounds < b.bounds
  le : a.le b = true ↔ a.bounds ≤ b.bounds
  gt : a.gt b = true ↔ a.bounds > b.bounds
  ge : a.ge b = true ↔ a.bounds ≥ b.bounds
  narrower : a.start.offset = b.start.offset → a.stop.offset < b.stop.offset → a.lt b = true

theorem relationLaws (a b c : Location) : RelationLaws a b c where
  covers_self := covers_iff.2 subset_rfl
  covers_through hab hbc := covers_iff.2 ((covers_iff.1 hbc).trans (covers_iff.1 hab))
  covers_both := same_iff_covers.symm
  intersects_swap := intersects_comm a b
  intersects_covered := intersects_of_covers
  outside_complement := rfl
  intersects_wider := intersects_mono
  outside_narrower := outside_anti
  relation_converse := relation_comm a b
  outside_order := isBefore_or_isAfter
  overlaps_ends := endsInside_or_touches

theorem orderLaws (one : a.source = b.source) : OrderLaws a b where
  eq := equal_iff one
  ne := by rw [← Bool.not_eq_true, equal_iff one]
  lt := lt_iff
  le := le_iff one
  gt := gt_iff one
  ge := ge_iff
  narrower start stop := by simp [Location.lt, start, stop]

/-- The predicates on the ranges of a source fit together, and the six signs of comparison are one
total order, by start and then by end. So sorting brings locations into an order of ranges that does
not depend on how they were listed. -/
theorem compares_coherently (a b c : Location) (one : a.source = b.source) :
    RelationLaws a b c ∧ OrderLaws a b ∧
      ∀ ls ls' : List Location, ls.Perm ls' →
        (sort ls).map bounds = (sort ls').map bounds ∧ (sort ls).Perm ls ∧
          ((sort ls).map bounds).Pairwise (· ≤ ·) :=
  ⟨relationLaws a b c, orderLaws one, fun ls _ perm =>
    ⟨map_sort_eq_of_perm perm, sort_perm ls, pairwise_sort ls⟩⟩

/-- Two calls. -/
def twoCalls : Source := ⟨"calls", "f();g();"⟩

/-- A part of the text of two calls. -/
def callsBetween (start stop : Nat) (ordered : start ≤ stop) (inside : stop ≤ 8) : Location where
  source := some twoCalls
  start := twoCalls.positionAt start
  stop := twoCalls.positionAt stop
  start_le_stop := by simpa using ordered
  stop_le_length := by
    rintro _ ⟨⟩
    have length : twoCalls.length = 8 := by decide
    simpa [length] using inside

/-- The first call. -/
def firstCall : Location := callsBetween 0 4 (by decide) (by decide)

/-- The whole text. -/
def bothCalls : Location := callsBetween 0 8 (by decide) (by decide)

/-- The place where the first call ends and the second one starts. -/
def caretBetween : Location := callsBetween 4 4 (by decide) (by decide)

theorem compares_coherently_calls :
    firstCall.source = bothCalls.source ∧ RelationLaws firstCall bothCalls caretBetween ∧
      OrderLaws firstCall bothCalls ∧ firstCall.lt bothCalls = true ∧
      [caretBetween, bothCalls, firstCall].Perm [firstCall, bothCalls, caretBetween] ∧
      (sort [caretBetween, bothCalls, firstCall]).map bounds =
        (sort [firstCall, bothCalls, caretBetween]).map bounds := by
  obtain ⟨relations, order, sorts⟩ := compares_coherently firstCall bothCalls caretBetween rfl
  have perm : [caretBetween, bothCalls, firstCall].Perm [firstCall, bothCalls, caretBetween] :=
    List.reverse_perm [firstCall, bothCalls, caretBetween]
  exact ⟨rfl, relations, order, order.narrower rfl (by decide), perm, (sorts _ _ perm).1⟩

end Location

end JavaScope
