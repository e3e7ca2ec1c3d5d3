import JavaScope.Proofs.Unit.Order
import JavaScope.Proofs.Unit.Text
import JavaScope.Proofs.Visited
import Mathlib.Data.List.Induction

/-!
# The innermost node

A selection is answered with the last of the shortest nodes around it. Where the nodes of a tree are
nested and the parts of every node follow each other in the text, two nodes that hold a common
character lie in each other, so the last of the shortest is the innermost one. Nodes that only touch
at a caret need not lie in each other; there the last of the shortest is all that can be said.
-/

namespace JavaScope

/-- The parts of every node lie within it and follow each other, no node ends before it starts, and
only the root has the range and the kind of the root. -/
structure Tree.IsWellNested (t : Tree) : Prop extends t.IsNested where
  order : t.IsInOrder
  ordered : t.IsOrdered

/-! ## Nodes in the order of the text -/

theorem exists_part_of_flatMap {α β : Type} {f : α → List β} {xs : List α} {before after : List β}
    {y : β} (split : xs.flatMap f = before ++ y :: after) :
    ∃ x ∈ xs, ∃ before' after' rest, f x = before' ++ y :: after' ∧ after = after' ++ rest := by
  induction xs generalizing before with
  | nil =>
    rw [List.flatMap_nil] at split
    simp at split
  | cons x xs ih =>
    rw [List.flatMap_cons] at split
    have later : ∀ before', xs.flatMap f = before' ++ y :: after →
        ∃ x' ∈ x :: xs, ∃ before' after' rest,
          f x' = before' ++ y :: after' ∧ after = after' ++ rest := by
      intro before' split'
      obtain ⟨x', member, part⟩ := ih split'
      exact ⟨x', List.mem_cons_of_mem x member, part⟩
    rcases List.append_eq_append_iff.1 split with ⟨before', -, rest⟩ | ⟨here, part, rest⟩
    · exact later before' rest
    · cases here with
      | nil => exact later [] rest.symm
      | cons y' after' =>
        obtain ⟨rfl, rfl⟩ := List.cons.inj rest
        exact ⟨x, List.mem_cons_self, before, after', _, part, rfl⟩

namespace Node

open scoped Classical in
/-- A walk that enters the nodes with a property, and keeps those, keeps the nodes that have it with
all nodes above them. -/
theorem filter_visited (p : Node → Bool) (r : Node) : (r.visited p).filter p =
    r.preorder.filter fun n => decide (∀ m ∈ r.preorder, n ∈ m.preorder → p m = true) := by
  rw [visited_eq_filter, List.filter_filter]
  apply List.filter_congr
  intro n hn
  rw [← Bool.coe_iff_coe, Bool.and_eq_true, decide_eq_true_iff, decide_eq_true_iff]
  constructor
  · rintro ⟨holds, met⟩ m hm below
    by_cases same : m = n
    · rw [same]
      exact holds
    · exact met m hm below same
  · intro all
    exact ⟨all n hn (mem_preorder_self n), fun m hm below _ => all m hm below⟩

/-- Every place of a node in the order of the text is followed by the nodes below it. -/
theorem mem_after {r n m : Node} {before after : List Node} (split : r.preorder = before ++ n :: after)
    (below : m ∈ n.preorder) (other : m ≠ n) : m ∈ after := by
  induction r using induction generalizing before after with
  | h r ih =>
    rw [preorder_eq] at split
    cases before with
    | nil =>
      obtain ⟨rfl, rfl⟩ := List.cons.inj split
      rw [preorder_eq, List.mem_cons] at below
      exact below.resolve_left other
    | cons first before =>
      obtain ⟨-, split⟩ := List.cons.inj split
      obtain ⟨c, hc, before', after', rest, part, rfl⟩ := exists_part_of_flatMap split
      exact List.mem_append_left rest (ih c hc part)

end Node

/-! ## The last of the shortest nodes -/

namespace ParsedUnit

variable {u : ParsedUnit} {nodes : List Node} {n : Node}

theorem shortest?_concat (u : ParsedUnit) (nodes : List Node) (n : Node) :
    u.shortest? (nodes ++ [n]) = u.shorter (u.shortest? nodes) n := by
  rw [shortest?, shortest?, List.foldl_append]
  rfl

theorem shortest?_eq_none : u.shortest? nodes = none ↔ nodes = [] := by
  induction nodes using List.reverseRecOn with
  | nil => simp [shortest?]
  | append_singleton nodes n ih =>
    have some : (u.shorter (u.shortest? nodes) n).isSome := by
      cases u.shortest? nodes with
      | none => rfl
      | some m =>
        rw [shorter]
        split <;> rfl
    rw [shortest?_concat]
    simp [Option.isSome_iff_ne_none.1 some]

/-- No node before is shorter, and every node after is longer. -/
theorem shortest?_cases (h : u.shortest? nodes = some n) :
    ∃ before after, nodes = before ++ n :: after ∧
      (∀ m ∈ before, u.charLength n ≤ u.charLength m) ∧
      ∀ m ∈ after, u.charLength n < u.charLength m := by
  induction nodes using List.reverseRecOn generalizing n with
  | nil => cases h
  | append_singleton nodes last ih =>
    rw [shortest?_concat] at h
    cases earlier : u.shortest? nodes with
    | none =>
      rw [earlier] at h
      cases h
      rw [shortest?_eq_none.1 earlier]
      exact ⟨[], [], rfl, by simp, by simp⟩
    | some best =>
      obtain ⟨before, after, rfl, longer, longer'⟩ := ih earlier
      rw [earlier, shorter] at h
      split at h
      · next shorter =>
        cases h
        refine ⟨before ++ best :: after, [], rfl, ?_, by simp⟩
        intro m hm
        rcases List.mem_append.1 hm with hm | hm
        · exact Nat.le_trans shorter (longer m hm)
        · rcases List.mem_cons.1 hm with rfl | hm
          · exact shorter
          · exact Nat.le_trans shorter (Nat.le_of_lt (longer' m hm))
      · next longest =>
        cases h
        refine ⟨before, after ++ [last], by simp, longer, ?_⟩
        intro m hm
        rcases List.mem_append.1 hm with hm | hm
        · exact longer' m hm
        · cases List.mem_singleton.1 hm
          exact Nat.lt_of_not_le longest

end ParsedUnit

namespace Context

/-! ## Nodes that may be answered -/

/-- The node and all nodes above it, up to the root of the unit, are named, and the node does not
reach into the wrapper. -/
structure Eligible (c : Context) (n : Node) : Prop where
  member : n ∈ c.root.preorder
  named : ∀ m ∈ c.root.preorder, n ∈ m.preorder → m.isNamed = true
  real : c.unit.isSynthetic n = false

/-- The characters of the node cover the location. -/
def Covers (c : Context) (l : Location) (n : Node) : Prop :=
  (c.unit.charRange n).1 ≤ l.start.offset ∧ l.stop.offset ≤ (c.unit.charRange n).2

/-- The caret where the location starts lies strictly inside the characters of the node. -/
def Holds (c : Context) (l : Location) (n : Node) : Prop :=
  (c.unit.charRange n).1 < l.start.offset ∧ l.start.offset < (c.unit.charRange n).2

/-- The node starts or ends at the caret where the location starts. -/
def Touches (c : Context) (l : Location) (n : Node) : Prop :=
  (c.unit.charRange n).1 = l.start.offset ∨ (c.unit.charRange n).2 = l.start.offset

/-- Of the nodes with a property, in the order of the text, the node is the last one of least
length. -/
def IsLastShortest (c : Context) (P : Node → Prop) (n : Node) : Prop :=
  P n ∧ ∃ before after, c.root.preorder = before ++ n :: after ∧
    (∀ m ∈ before, P m → c.unit.charLength n ≤ c.unit.charLength m) ∧
    ∀ m ∈ after, P m → c.unit.charLength n < c.unit.charLength m

variable {c : Context} {n : Node} {P : Node → Prop}

theorem isLastShortest_of_shortest? {p : Node → Bool} (means : ∀ m, p m = true ↔ P m)
    (h : c.unit.shortest? (c.root.preorder.filter p) = some n) : c.IsLastShortest P n := by
  obtain ⟨before, after, split, longer, longer'⟩ := ParsedUnit.shortest?_cases h
  obtain ⟨first, rest, all, rfl, filtered⟩ := List.filter_eq_append_iff.1 split
  obtain ⟨skipped, last, rfl, none, holds, rfl⟩ := List.filter_eq_cons_iff.1 filtered
  refine ⟨(means n).1 holds, first ++ skipped, last, by rw [all, List.append_assoc], ?_, ?_⟩
  · intro m hm holds'
    rcases List.mem_append.1 hm with hm | hm
    · exact longer m (List.mem_filter.2 ⟨hm, (means m).2 holds'⟩)
    · exact absurd ((means m).2 holds') (none m hm)
  · intro m hm holds'
    exact longer' m (List.mem_filter.2 ⟨hm, (means m).2 holds'⟩)

variable (tree : c.unit.tree.IsWellNested)
include tree

/-- Where the nodes with a property lie in each other, the last of the shortest is below all. -/
theorem IsLastShortest.mem_preorder (last : c.IsLastShortest P n)
    (inside : ∀ m, P m → m ∈ c.root.preorder)
    (chain : ∀ m, P m → n ∈ m.preorder ∨ m ∈ n.preorder) {m : Node} (holds : P m) :
    n ∈ m.preorder := by
  obtain ⟨own, before, after, split, -, longer⟩ := last
  rcases chain m holds with above | below
  · exact above
  · by_cases same : m = n
    · rw [same]
      exact Node.mem_preorder_self n
    · -- a node below comes later in the text, but it is not longer
      have later := longer m (Node.mem_after split below same) holds
      have nested := c.unit.charRange_nested tree.toIsNested
        (Node.mem_preorder_trans (ParsedUnit.mem_preorder_of_root? c.root_eq) (inside n own)) below
      simp only [ParsedUnit.charLength] at later
      omega

open scoped Classical in
/-- A walk that stays out of nodes that do not cover the location misses none that may be answered. -/
theorem exists_spanningNodes_eq (l : Location) : ∃ p : Node → Bool,
    c.spanningNodes l.start.offset l.stop.offset = c.root.preorder.filter p ∧
      ∀ n, p n = true ↔ c.Eligible n ∧ c.Covers l n := by
  have spans : ∀ m, c.unit.spans l.start.offset l.stop.offset m = true ↔
      m.isNamed = true ∧ c.Covers l m := by
    intro m
    simp only [ParsedUnit.spans, Covers, Bool.and_eq_true, decide_eq_true_eq, and_assoc]
  have listed : ∀ n ∈ c.root.preorder,
      (∀ m ∈ c.root.preorder, n ∈ m.preorder → c.unit.spans l.start.offset l.stop.offset m = true) ∧
        c.unit.isSynthetic n = false ↔ c.Eligible n ∧ c.Covers l n := by
    intro n hn
    constructor
    · rintro ⟨all, real⟩
      exact ⟨⟨hn, fun m hm above => ((spans m).1 (all m hm above)).1, real⟩,
        ((spans n).1 (all n hn (Node.mem_preorder_self n))).2⟩
    · rintro ⟨eligible, covers⟩
      refine ⟨fun m hm above => (spans m).2 ⟨eligible.named m hm above, ?_⟩, eligible.real⟩
      have nested := c.unit.charRange_nested tree.toIsNested
        (Node.mem_preorder_trans (ParsedUnit.mem_preorder_of_root? c.root_eq) hm) above
      exact ⟨Nat.le_trans nested.1 covers.1, Nat.le_trans covers.2 nested.2⟩
  refine ⟨fun n => decide (c.Eligible n ∧ c.Covers l n), ?_, fun n => decide_eq_true_iff⟩
  calc c.spanningNodes l.start.offset l.stop.offset
      = ((c.root.visited (c.unit.spans l.start.offset l.stop.offset)).filter
          (c.unit.spans l.start.offset l.stop.offset)).filter fun n => !c.unit.isSynthetic n := by
        rw [spanningNodes, List.filter_filter]
        exact List.filter_congr fun n _ => Bool.and_comm _ _
    _ = c.root.preorder.filter fun n => decide (c.Eligible n ∧ c.Covers l n) := by
        rw [Node.filter_visited, List.filter_filter]
        apply List.filter_congr
        intro n hn
        rw [← Bool.coe_iff_coe, Bool.and_eq_true, Bool.not_eq_true', decide_eq_true_eq,
          decide_eq_true_eq, and_comm]
        exact listed n hn

/-- Two nodes of the unit that share a character lie in each other. -/
theorem mem_preorder_or_of_overlap {m n : Node} (hm : m ∈ c.root.preorder) (hn : n ∈ c.root.preorder)
    (overlap : (c.unit.charRange m).1 < (c.unit.charRange n).2)
    (overlap' : (c.unit.charRange n).1 < (c.unit.charRange m).2) :
    n ∈ m.preorder ∨ m ∈ n.preorder := by
  by_contra apart
  obtain ⟨first, second⟩ := not_or.1 apart
  have gap := c.unit.charRange_apart tree.toIsNested tree.order
    (ParsedUnit.mem_preorder_of_root? c.root_eq) hm hn second first
  omega

omit tree in
theorem selectedNode_eq_none {start stop : Nat} :
    c.selectedNode start stop = none ↔ c.spanningNodes start stop = [] := by
  simp only [selectedNode]
  generalize c.spanningNodes start stop = nodes
  split
  · cases held : c.unit.shortest? (nodes.filter (c.unit.holdsCaret start)) with
    | some n =>
      simp only [reduceCtorEq, false_iff]
      rintro rfl
      cases held
    | none =>
      rw [ParsedUnit.shortest?_eq_none, List.filter_eq_nil_iff] at held
      simp only [ParsedUnit.shortest?_eq_none, List.filter_eq_nil_iff]
      constructor
      · intro touched
        apply List.eq_nil_iff_forall_not_mem.2
        intro n hn
        exact touched n hn (by simpa using held n hn)
      · rintro rfl n hn
        cases hn
  · exact ParsedUnit.shortest?_eq_none

/-- What a location selects: one node that may be answered and covers it. Around a range, or around
a caret that lies strictly inside a node, it is the innermost such node. -/
structure Selects (c : Context) (l : Location) (n : Node) : Prop where
  eligible : c.Eligible n
  covers : c.Covers l n
  range : l.isEmpty = false → ∀ m, c.Eligible m → c.Covers l m → n ∈ m.preorder
  caret : l.isEmpty = true → ∀ m, c.Eligible m → c.Holds l m → c.Holds l n ∧ n ∈ m.preorder
  edge : l.isEmpty = true → (∀ m, c.Eligible m → ¬ c.Holds l m) →
    c.IsLastShortest (fun m => c.Eligible m ∧ c.Touches l m) n

theorem selects_of_range {l : Location} (range : l.isEmpty = false)
    (h : c.selectedNode l.start.offset l.stop.offset = some n) : c.Selects l n := by
  have long : l.start.offset ≠ l.stop.offset := by simpa [Location.isEmpty] using range
  have along := l.start_le_stop
  obtain ⟨p, spanning, means⟩ := exists_spanningNodes_eq tree l
  rw [selectedNode, if_neg long, spanning] at h
  have last := isLastShortest_of_shortest? means h
  obtain ⟨eligible, covers⟩ := last.1
  refine ⟨eligible, covers, fun _ m eligible' covers' => ?_, by simp [range], by simp [range]⟩
  apply last.mem_preorder tree (fun m holds => holds.1.member) _ ⟨eligible', covers'⟩
  rintro m ⟨eligible', covers'⟩
  simp only [Covers] at covers covers'
  exact mem_preorder_or_of_overlap tree eligible'.member eligible.member (by omega) (by omega)

theorem selects_of_caret {l : Location} (caret : l.isEmpty = true)
    (h : c.selectedNode l.start.offset l.stop.offset = some n) : c.Selects l n := by
  have empty : l.start.offset = l.stop.offset := by simpa [Location.isEmpty] using caret
  obtain ⟨p, spanning, means⟩ := exists_spanningNodes_eq tree l
  have holds : ∀ m, c.unit.holdsCaret l.start.offset m = true ↔ c.Holds l m := by
    intro m
    simp only [ParsedUnit.holdsCaret, Holds, Bool.and_eq_true, decide_eq_true_eq]
  have held : ∀ m, (c.unit.holdsCaret l.start.offset m && p m) = true ↔
      c.Eligible m ∧ c.Holds l m := by
    intro m
    simp only [Bool.and_eq_true, holds, means, Holds, Covers]
    constructor
    · exact fun ⟨inside, eligible, _⟩ => ⟨eligible, inside⟩
    · exact fun ⟨eligible, inside⟩ => ⟨inside, eligible, by omega, by omega⟩
  have touched : ∀ m, (!c.unit.holdsCaret l.start.offset m && p m) = true ↔
      c.Eligible m ∧ c.Touches l m := by
    intro m
    simp only [Bool.and_eq_true, Bool.not_eq_true', Bool.eq_false_iff, ne_eq, holds, means, Holds,
      Covers, Touches]
    constructor
    · exact fun ⟨outside, eligible, _⟩ => ⟨eligible, by omega⟩
    · rintro ⟨eligible, edge⟩
      have member := Node.mem_preorder_trans (ParsedUnit.mem_preorder_of_root? c.root_eq)
        eligible.member
      have along := c.unit.charRange_ordered (tree.ordered m member)
      exact ⟨by omega, eligible, by omega, by omega⟩
  simp only [selectedNode, if_pos empty, spanning, List.filter_filter] at h
  split at h
  · next found =>
    cases h
    have last := isLastShortest_of_shortest? held found
    obtain ⟨eligible, inside⟩ := last.1
    simp only [Holds] at inside
    refine ⟨eligible, ⟨by omega, by omega⟩, by simp [caret], fun _ m eligible' inside' => ?_,
      fun _ none => absurd inside (none n eligible)⟩
    refine ⟨inside, last.mem_preorder tree (fun m holds => holds.1.member) ?_ ⟨eligible', inside'⟩⟩
    rintro m ⟨eligible', inside'⟩
    simp only [Holds] at inside'
    exact mem_preorder_or_of_overlap tree eligible'.member eligible.member (by omega) (by omega)
  · next nothing =>
    rw [ParsedUnit.shortest?_eq_none, List.filter_eq_nil_iff] at nothing
    have none : ∀ m, c.Eligible m → ¬ c.Holds l m := fun m eligible inside =>
      nothing m eligible.member ((held m).2 ⟨eligible, inside⟩)
    have last := isLastShortest_of_shortest? touched h
    obtain ⟨-, covers⟩ := (means n).1 (Bool.and_eq_true_iff.1 ((touched n).2 last.1)).2
    exact ⟨last.1.1, covers, by simp [caret], fun _ m eligible inside =>
      absurd inside (none m eligible), fun _ _ => last⟩

/-- A location selects one node, or none where no node that may be answered covers it. Of the nodes
around a range, or strictly around a caret, it is the innermost one; of those that start or end at
any other caret it is the last one of least length. -/
theorem locate_selected (own : c.unit.source = c.source) (l : Location) :
    ∃ found, c.locate (.selected l) = .ok found ∧
      (found = [] ↔ ∀ n, c.Eligible n → ¬ c.Covers l n) ∧
      ∀ answer ∈ found, found = [answer] ∧ c.locateUnitNode answer.node = .ok answer ∧
        c.Selects l answer.node := by
  simp only [locate]
  cases selects : c.selectedNode l.start.offset l.stop.offset with
  | none =>
    obtain ⟨p, spanning, means⟩ := exists_spanningNodes_eq tree l
    rw [selectedNode_eq_none, spanning, List.filter_eq_nil_iff] at selects
    refine ⟨[], rfl, iff_of_true rfl fun n eligible covers => ?_, by simp⟩
    exact selects n eligible.member ((means n).2 ⟨eligible, covers⟩)
  | some n =>
    have selected : c.Selects l n := by
      cases empty : l.isEmpty with
      | false => exact selects_of_range tree empty selects
      | true => exact selects_of_caret tree empty selects
    have member := Node.mem_preorder_trans (ParsedUnit.mem_preorder_of_root? c.root_eq)
      selected.eligible.member
    obtain ⟨answer, located, rfl, -⟩ := locateUnitNode_isOk own (tree.ordered n member)
    refine ⟨[answer], ?_, ?_, ?_⟩
    · simp only [located]
      rfl
    · exact iff_of_false (by simp) fun none =>
        none answer.node selected.eligible selected.covers
    · intro answer' here
      cases List.mem_singleton.1 here
      exact ⟨rfl, located, selected⟩

omit tree

theorem accented_isWellNested : accented.unit.tree.IsWellNested :=
  ⟨⟨by decide, by decide⟩, by decide, by decide⟩

/-- The caret between the two fields. -/
def caretBetween : Location :=
  ⟨some accented.source, accented.source.positionAt 6, accented.source.positionAt 6, Nat.le_refl _,
    by rintro _ ⟨⟩; decide⟩

theorem locate_selected_caretBetween :
    accented.unit.tree.IsWellNested ∧ accented.unit.source = accented.source ∧
      ∃ found, accented.locate (.selected caretBetween) = .ok found ∧
        (found = [] ↔ ∀ n, accented.Eligible n → ¬ accented.Covers caretBetween n) ∧
        ∀ answer ∈ found, found = [answer] ∧ accented.locateUnitNode answer.node = .ok answer ∧
          accented.Selects caretBetween answer.node :=
  ⟨accented_isWellNested, rfl, locate_selected accented_isWellNested rfl caretBetween⟩

example : (accented.locate (.selected caretBetween)).toOption.map
    (·.map fun l => (l.start.offset, l.stop.offset, l.node.kind)) =
      some [(0, 6, .fieldDeclaration)] := by
  decide

end Context

end JavaScope
