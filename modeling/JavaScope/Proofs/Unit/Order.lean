import JavaScope.Proofs.Unit.Range
import JavaScope.Scope.Local

/-!
# Nodes that hold a position

Where the parts of every node follow each other in the text, a node holds the position of a name
exactly if the name stands below it.
-/

namespace JavaScope

/-- The parts of every node follow each other in the text. -/
def Tree.IsInOrder (t : Tree) : Prop :=
  ∀ n ∈ t.root.preorder, n.children.Pairwise fun a b => a.stop ≤ b.start

instance (t : Tree) : Decidable t.IsInOrder :=
  inferInstanceAs (Decidable (∀ n ∈ t.root.preorder, n.children.Pairwise _))

/-- The source shows at least a character of every name below the node. -/
def ParsedUnit.ShowsNames (u : ParsedUnit) (n : Node) : Prop :=
  ∀ m ∈ n.preorder, m.kind ∈ [Kind.identifier, .other "underscore_pattern"] →
    u.charStart m < (u.charRange m).2

instance (u : ParsedUnit) (n : Node) : Decidable (u.ShowsNames n) :=
  inferInstanceAs (Decidable (∀ m ∈ n.preorder, _ → _))

/-- Of two nodes with a common node below, one is below the other. -/
theorem Node.mem_preorder_or {r a b n : Node} (ha : a ∈ r.preorder) (hb : b ∈ r.preorder)
    (below : n ∈ a.preorder) (below' : n ∈ b.preorder) : b ∈ a.preorder ∨ a ∈ b.preorder := by
  induction r using induction with
  | h r ih =>
    have ha' := ha
    have hb' := hb
    rw [preorder_eq, List.mem_cons, List.mem_flatMap] at ha' hb'
    rcases ha' with rfl | ⟨c, hc, ha'⟩
    · exact .inl hb
    · rcases hb' with rfl | ⟨c', hc', hb'⟩
      · exact .inr ha
      · rw [eq_of_mem_preorder hc' hc (mem_preorder_trans hb' below') (mem_preorder_trans ha' below)]
          at hb'
        exact ih c hc ha' hb'

namespace ParsedUnit

variable {u : ParsedUnit} (nested : u.tree.IsNested) (order : u.tree.IsInOrder) {m n : Node}

include nested order

omit order in
theorem charRange_siblings {r : Node} (hr : r ∈ u.tree.root.preorder) (hm : m ∈ r.children)
    (hn : n ∈ r.children) (before : m.stop ≤ n.start) : (u.charRange m).2 ≤ (u.charRange n).1 := by
  have below : ∀ d ∈ r.children, u.charRange d = (u.charOffset d.start, u.charOffset d.stop) := by
    intro d hd
    apply charRange_of_not_isSame
    apply nested.ownRoot.isSame_eq_false (Node.mem_preorder_of_mem_children hr hd)
    rintro rfl
    cases Node.parent_of_mem_children hd
  rw [below m hm, below n hn]
  exact u.charOffset_mono (by omega)

/-- The characters of nodes that are not below each other do not overlap. -/
theorem charRange_apart {r : Node} (hr : r ∈ u.tree.root.preorder) (hm : m ∈ r.preorder)
    (hn : n ∈ r.preorder) (apart : m ∉ n.preorder) (apart' : n ∉ m.preorder) :
    (u.charRange m).2 ≤ (u.charRange n).1 ∨ (u.charRange n).2 ≤ (u.charRange m).1 := by
  induction r using Node.induction with
  | h r ih =>
    have hm' := hm
    have hn' := hn
    rw [Node.preorder_eq, List.mem_cons, List.mem_flatMap] at hm' hn'
    rcases hm' with rfl | ⟨c, hc, hm'⟩
    · exact absurd hn apart'
    rcases hn' with rfl | ⟨c', hc', hn'⟩
    · exact absurd hm apart
    by_cases same : c = c'
    · subst same
      exact ih c hc (Node.mem_preorder_of_mem_children hr hc) hm' hn'
    · have outer : ∀ d ∈ r.children, ∀ x ∈ d.preorder, (u.charRange d).1 ≤ (u.charRange x).1 ∧
          (u.charRange x).2 ≤ (u.charRange d).2 := fun d hd x hx =>
        u.charRange_nested nested (Node.mem_preorder_of_mem_children hr hd) hx
      have inM := outer c hc m hm'
      have inN := outer c' hc' n hn'
      rcases pair_sublist_of_mem hc hc' same with first | second
      · have gap := charRange_siblings nested hr hc hc' ((order r hr).forall_sublist first)
        exact .inl (by omega)
      · have gap := charRange_siblings nested hr hc' hc ((order r hr).forall_sublist second)
        exact .inr (by omega)

end ParsedUnit

/-! ## What holds a node -/

namespace ScopePoint

variable {p : ScopePoint} {m n : Node} (nested : p.unit.tree.IsNested)
  (hm : m ∈ p.unit.tree.root.preorder) (below : n ∈ m.preorder)

include nested hm below

theorem isInside_of_below (inside : p.isInside n = true) : p.isInside m = true := by
  have around := p.unit.charRange_nested nested hm below
  simp only [isInside, Bool.and_eq_true, decide_eq_true_eq] at *
  omega

theorem startsBefore_of_below (begun : p.startsBefore n = true) : p.startsBefore m = true := by
  have around := p.unit.charRange_nested nested hm below
  rw [startsBefore, decide_eq_true_eq] at begun ⊢
  exact Nat.lt_of_le_of_lt around.1 begun

end ScopePoint

/-! ## The position of a name -/

/-- The walk is made in the unit, for the position of a name that the source shows. -/
structure ScopePoint.IsAt (p : ScopePoint) (u : ParsedUnit) (n : Node) : Prop where
  unit : p.unit = u
  member : n ∈ u.tree.root.preorder
  position : p.position = u.charStart n
  shown : u.charStart n < (u.charRange n).2
  leaf : n.children = []

namespace ScopePoint.IsAt

variable {p : ScopePoint} {u : ParsedUnit} {m n : Node} (place : p.IsAt u n)

include place

/-- A node holds the position if the name stands below it, and only then. -/
theorem isInside_iff (java : u.tree.IsJava) (order : u.tree.IsInOrder)
    (hm : m ∈ u.tree.root.preorder) : p.isInside m = true ↔ n ∈ m.preorder := by
  have shown := place.shown
  rw [ParsedUnit.charStart] at shown
  simp only [isInside, place.unit, place.position, ParsedUnit.charStart, Bool.and_eq_true,
    decide_eq_true_eq]
  constructor
  · rintro ⟨start, stop⟩
    by_contra apart'
    have apart : m ∉ n.preorder := by
      intro below
      rw [Node.preorder_eq, place.leaf, List.flatMap_nil, List.mem_singleton] at below
      exact apart' (below ▸ Node.mem_preorder_self m)
    have gap := u.charRange_apart java.isNested order (Node.mem_preorder_self _) hm place.member apart apart'
    omega
  · intro below
    have nested := u.charRange_nested java.isNested hm below
    omega

/-- A node starts before the position if it holds a name that ends before it. -/
theorem startsBefore (java : u.tree.IsJava) (hm : m ∈ u.tree.root.preorder) {name : Node}
    (below : name ∈ m.preorder) (shown : u.charStart name < (u.charRange name).2)
    (ends : (u.charRange name).2 ≤ u.charStart n) : p.startsBefore m = true := by
  have nested := u.charRange_nested java.isNested hm below
  simp only [ScopePoint.startsBefore, place.unit, place.position, ParsedUnit.charStart,
    decide_eq_true_eq] at *
  omega

end ScopePoint.IsAt

end JavaScope
