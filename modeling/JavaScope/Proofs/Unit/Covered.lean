import JavaScope.Proofs.Action
import JavaScope.Proofs.Unit.Selection
import JavaScope.Scope.Query

/-!
# Covered nodes

A scope query at a location looks at the first node inside it. The walk for such nodes stays out of
nodes that do not touch the location and of those that it lists, and it enters the wrapper of a
fragment without listing it. As a node lies inside the nodes above it, all nodes above a covered one
touch the location, so the walk lists the outermost covered nodes and misses none.
-/

namespace JavaScope

/-- Parts of a node that follow each other differ, unless they are empty. -/
theorem Tree.IsWellNested.nodup_children {t : Tree} (tree : t.IsWellNested) {n : Node}
    (hn : n ∈ t.root.preorder) (distinct : (n.children.filter fun m => m.start = m.stop).Nodup) :
    n.children.Nodup := by
  rw [List.nodup_iff_sublist] at distinct ⊢
  intro m twice
  have part := Node.mem_preorder_of_mem_children hn (twice.subset List.mem_cons_self)
  have along := tree.ordered m part
  have follows := (tree.order n hn).forall_sublist twice
  have empty : m.start = m.stop := Nat.le_antisymm along follows
  have kept := twice.filter fun m => decide (m.start = m.stop)
  simp only [empty, decide_true, List.filter_cons, List.filter_nil, if_true] at kept
  exact distinct m kept

namespace Context

variable {c : Context} {l : Location} {m n : Node}

/-- The node may be answered, and its characters lie inside the location. -/
structure IsCovered (c : Context) (l : Location) (n : Node) : Prop where
  eligible : c.Eligible n
  start : l.start.offset ≤ (c.unit.charRange n).1
  stop : (c.unit.charRange n).2 ≤ l.stop.offset

/-- The visitor that collects the nodes inside a location. It stays out of them, and out of nodes
that do not touch the location. -/
def coveringVisitor (c : Context) (l : Location) : Visitor (StateM (List Node)) :=
  .collecting
    (fun n => c.unit.touches l.start.offset l.stop.offset n &&
      !c.unit.isCovered l.start.offset l.stop.offset n)
    (fun n => c.unit.touches l.start.offset l.stop.offset n &&
      c.unit.isCovered l.start.offset l.stop.offset n)

theorem accept_coveringVisitor (c : Context) (l : Location) :
    (c.root.accept (c.coveringVisitor l)).run [] =
      (⟨⟩, c.coveredNodes l.start.offset l.stop.offset) :=
  Node.run_accept_collecting _ _ c.root

/-! ## What the walk tests -/

theorem isCovered_iff (named : ∀ k ∈ c.root.preorder, n ∈ k.preorder → k.isNamed = true)
    (hn : n ∈ c.root.preorder) :
    c.unit.isCovered l.start.offset l.stop.offset n = true ↔ c.IsCovered l n := by
  simp only [ParsedUnit.isCovered, Bool.and_eq_true, decide_eq_true_eq, Bool.not_eq_true']
  constructor
  · rintro ⟨⟨start, stop⟩, real⟩
    exact ⟨⟨hn, named, real⟩, start, stop⟩
  · intro covered
    exact ⟨⟨covered.start, covered.stop⟩, covered.eligible.real⟩

section Walk

variable (tree : c.unit.tree.IsWellNested)
include tree

/-- The nodes above a covered node touch the location. -/
theorem IsCovered.touches (covered : c.IsCovered l n) (hm : m ∈ c.root.preorder)
    (below : n ∈ m.preorder) : c.unit.touches l.start.offset l.stop.offset m = true := by
  have member := Node.mem_preorder_trans (ParsedUnit.mem_preorder_of_root? c.root_eq) hm
  have named := covered.eligible.named m hm below
  have nested := c.unit.charRange_nested tree.toIsNested member below
  have along := c.unit.charRange_ordered (tree.ordered n (Node.mem_preorder_trans member below))
  have start := covered.start
  have stop := covered.stop
  simp only [ParsedUnit.touches, named, Bool.true_and, Bool.and_eq_true, decide_eq_true_eq]
  omega

open scoped Classical in
theorem coveredNodes_eq_filter (l : Location) : c.coveredNodes l.start.offset l.stop.offset =
    c.root.preorder.filter fun n => decide (n.IsOutermost (c.IsCovered l)) := by
  apply Node.filter_visited_eq_outermost (ParsedUnit.mem_preorder_of_root? c.root_eq)
  · intro n hn m above covered
    exact covered.eligible.member
  · intro n hn met
    rw [Bool.and_eq_true]
    constructor
    · rintro ⟨touches, covers⟩
      have named : ∀ k ∈ c.root.preorder, n ∈ k.preorder → k.isNamed = true := by
        intro k hk below
        have touched : c.unit.touches l.start.offset l.stop.offset k = true := by
          by_cases same : k = n
          · rw [same]
            exact touches
          · exact (Bool.and_eq_true_iff.1 (met k hk below same)).1
        simp only [ParsedUnit.touches, Bool.and_eq_true] at touched
        exact touched.1.1
      exact (isCovered_iff named hn).1 covers
    · intro covered
      exact ⟨covered.touches tree hn (Node.mem_preorder_self n),
        (isCovered_iff covered.eligible.named hn).2 covered⟩
  · intro n covered m hm below
    have named : ∀ k ∈ c.root.preorder, m ∈ k.preorder → k.isNamed = true := by
      intro k hk above
      exact covered.eligible.named k hk (Node.mem_preorder_trans above below)
    rw [covered.touches tree hm below, Bool.true_and, Bool.not_eq_true', ← Bool.not_eq_true,
      isCovered_iff named hm]

/-- Where a node is covered, a topmost one is. -/
theorem coveredNodes_eq_nil (l : Location) :
    c.coveredNodes l.start.offset l.stop.offset = [] ↔ ∀ n, ¬ c.IsCovered l n := by
  simp only [coveredNodes_eq_filter tree, List.filter_eq_nil_iff, decide_eq_true_eq]
  constructor
  · intro none n covered
    obtain ⟨top, -, outermost⟩ := Node.exists_isOutermost List.mem_cons_self covered
    exact none top outermost.1.eligible.member outermost
  · intro none n hn outermost
    exact none n outermost.1

omit tree in
theorem outcome_selectedNode (l : Location) (e : Environment) :
    outcome (Scope.selectedNode l) e =
      (.ok (e.context.coveredNodes l.start.offset l.stop.offset).head?, e) := rfl

open scoped Classical in
/-- The walk over a unit for the nodes inside a location collects, in the order of the text, the
covered nodes with no covered node above, each place of the tree once. So no node is there twice,
unless two empty parts of one node are equal, which nothing tells apart. A scope query looks at the
first node of the list, and has none to look at only where no node is covered. -/
theorem accept_covering (l : Location) :
    let nodes := ((c.root.accept (c.coveringVisitor l)).run []).2
    nodes = (c.root.preorder.filter fun n => decide (n.IsOutermost (c.IsCovered l))) ∧
      ((∀ n ∈ c.root.preorder, (n.children.filter fun m => m.start = m.stop).Nodup) →
        nodes.Nodup) ∧
      (∀ e, e.context = c → outcome (Scope.selectedNode l) e = (.ok nodes.head?, e)) ∧
      (nodes = [] ↔ ∀ n, ¬ c.IsCovered l n) := by
  rw [accept_coveringVisitor]
  refine ⟨coveredNodes_eq_filter tree l, ?_, ?_, coveredNodes_eq_nil tree l⟩
  · intro distinct
    have parts : ∀ n ∈ c.root.preorder, n.children.Nodup := by
      intro n hn
      have member := Node.mem_preorder_trans (ParsedUnit.mem_preorder_of_root? c.root_eq) hn
      exact tree.nodup_children member (distinct n hn)
    rw [coveredNodes_eq_filter tree]
    exact (Node.nodup_preorder parts).filter _
  · rintro e rfl
    exact outcome_selectedNode l e

end Walk

/-- All characters of the two fields. -/
def bothFields : Location :=
  ⟨some accented.source, accented.source.positionAt 0, accented.source.positionAt 13,
    by decide, by rintro _ ⟨⟩; decide⟩

open scoped Classical in
theorem accept_covering_bothFields :
    accented.unit.tree.IsWellNested ∧
      let nodes := ((accented.root.accept (accented.coveringVisitor bothFields)).run []).2
      nodes = (accented.root.preorder.filter fun n =>
          decide (n.IsOutermost (accented.IsCovered bothFields))) ∧
        ((∀ n ∈ accented.root.preorder, (n.children.filter fun m => m.start = m.stop).Nodup) →
          nodes.Nodup) ∧
        (∀ e, e.context = accented →
          outcome (Scope.selectedNode bothFields) e = (.ok nodes.head?, e)) ∧
        (nodes = [] ↔ ∀ n, ¬ accented.IsCovered bothFields n) :=
  ⟨accented_isWellNested, accept_covering accented_isWellNested bothFields⟩

-- The wrapper class lies inside the location as well, but it is not listed.
example : (((accented.root.accept (accented.coveringVisitor bothFields)).run []).2).map
    (fun n => (n.kind, accented.unit.charRange n)) =
      [(.fieldDeclaration, (0, 6)), (.fieldDeclaration, (7, 13))] := by
  decide

end Context

end JavaScope
