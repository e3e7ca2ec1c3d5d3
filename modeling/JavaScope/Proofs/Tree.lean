import JavaScope.Tree.Fold
import JavaScope.Unit.Context

/-!
# Induction on nodes

A fact about all nodes holds if it passes from the nodes directly below a node to the node, and a
fact about the answers of a fold holds if every step of the fold keeps it. Small trees are written
down with their named nodes and tokens.
-/

namespace JavaScope

namespace Node

theorem induction {P : Node → Prop} (h : ∀ n, (∀ c ∈ n.children, P c) → P n) (n : Node) : P n := by
  obtain ⟨t, up⟩ := n
  apply h _
  intro c hc
  have below := (mem_children_iff.1 hc).1
  exact induction h c
termination_by sizeOf n.tree
decreasing_by
  obtain ⟨info, cs⟩ := t
  have := List.sizeOf_lt_of_mem below
  simp only [Tree.node.sizeOf_spec, Tree.children] at *
  omega

/-- What every step of a fold hands on from the nodes below to a node holds at all nodes. -/
theorem fold_induction {α : Type _} {step : Node → List (Node × α) → α} {P : Node → α → Prop}
    (h : ∀ n below, (∀ each ∈ below, P each.1 each.2) → P n (step n below)) (n : Node) :
    P n (n.fold step) := by
  induction n using induction with
  | h n ih =>
    rw [fold_eq]
    apply h n _
    intro each member
    obtain ⟨c, hc, rfl⟩ := List.mem_map.1 member
    exact ih c hc

/-! ## Nodes of a tree -/

theorem mem_children_of_childByField {n c : Node} {f : Field} (h : n.childByField f = some c) :
    c ∈ n.children ∧ c.field = some f := by
  rw [childByField] at h
  split at h
  · cases h
  · exact ⟨List.mem_of_find?_eq_some h, by simpa using List.find?_some h⟩

theorem mem_children_of_childOfKind {n c : Node} {k : Kind} (h : n.childOfKind k = some c) :
    c ∈ n.children ∧ c.kind = k :=
  ⟨List.mem_of_find?_eq_some h, by simpa using List.find?_some h⟩

/-- Where the name of a node stands: in its field, in that of an inner declarator, or first in a
type parameter. -/
theorem nameNode_cases {n name : Node} (h : n.nameNode = some name) :
    (name ∈ n.children ∧ name.field = some .name) ∨
      (n.kind = .spreadParameter ∧ ∃ inner ∈ n.children, name ∈ inner.children ∧
        name.field = some .name ∧ inner.kind = .variableDeclarator) ∨
      (n.kind = .typeParameter ∧ name ∈ n.children ∧
        (name.kind = .typeIdentifier ∨ name.kind = .identifier)) := by
  rw [nameNode] at h
  split at h
  · next named =>
    cases h
    exact .inl (mem_children_of_childByField named)
  · split at h
    · next kind =>
      obtain ⟨inner, declarator, named⟩ := Option.bind_eq_some_iff.1 h
      obtain ⟨below, field⟩ := mem_children_of_childByField named
      obtain ⟨above, innerKind⟩ := mem_children_of_childOfKind declarator
      exact .inr (.inl ⟨kind, inner, above, below, field, innerKind⟩)
    · next kind =>
      right; right
      rcases Option.or_eq_some_iff.1 h with first | ⟨-, second⟩
      · have found := mem_children_of_childOfKind first
        exact ⟨kind, found.1, .inl found.2⟩
      · have found := mem_children_of_childOfKind second
        exact ⟨kind, found.1, .inr found.2⟩
    · cases h

theorem preorder_eq (n : Node) : n.preorder = n :: n.children.flatMap preorder := by
  rw [preorder, visited_eq]
  rfl

theorem mem_preorder_self (n : Node) : n ∈ n.preorder := by
  rw [preorder_eq]
  exact List.mem_cons_self

theorem mem_preorder_of_mem_children {root n c : Node} (h : n ∈ root.preorder)
    (hc : c ∈ n.children) : c ∈ root.preorder := by
  induction root using induction with
  | h root ih =>
    rw [preorder_eq, List.mem_cons, List.mem_flatMap] at h ⊢
    rcases h with rfl | ⟨child, hchild, hn⟩
    · exact .inr ⟨c, hc, mem_preorder_self c⟩
    · exact .inr ⟨child, hchild, ih child hchild hn⟩

/-- A walk that stays out of some nodes meets nodes of the tree. -/
theorem mem_preorder_of_mem_visited {enters : Node → Bool} {m n : Node}
    (h : n ∈ m.visited enters) : n ∈ m.preorder := by
  induction m using induction with
  | h m ih =>
    rw [visited_eq, List.mem_cons] at h
    rw [preorder_eq, List.mem_cons, List.mem_flatMap]
    rcases h with rfl | h
    · exact .inl rfl
    · right
      split at h
      · obtain ⟨c, hc, hn⟩ := List.mem_flatMap.1 h
        exact ⟨c, hc, ih c hc hn⟩
      · cases h

theorem mem_visited_self (enters : Node → Bool) (n : Node) : n ∈ n.visited enters := by
  rw [visited_eq]
  exact List.mem_cons_self

/-- A walk that enters a node meets what it meets from a node directly below. -/
theorem mem_visited_of_child {enters : Node → Bool} {m c n : Node} (entered : enters m = true)
    (hc : c ∈ m.children) (h : n ∈ c.visited enters) : n ∈ m.visited enters := by
  rw [visited_eq, if_pos entered]
  exact List.mem_cons_of_mem _ (List.mem_flatMap.2 ⟨c, hc, h⟩)

theorem errorNodes_eq (n : Node) :
    n.errorNodes = if n.hasError then
      n.children.flatMap fun c => if c.isErrorNode then [c] else c.errorNodes else [] := by
  rw [errorNodes, fold_eq, List.flatMap_map]

theorem mem_preorder_of_mem_errorNodes {m n : Node} (h : n ∈ m.errorNodes) : n ∈ m.preorder := by
  induction m using induction with
  | h m ih =>
    rw [errorNodes_eq] at h
    split at h
    · obtain ⟨c, hc, hn⟩ := List.mem_flatMap.1 h
      rw [preorder_eq, List.mem_cons, List.mem_flatMap]
      refine .inr ⟨c, hc, ?_⟩
      split at hn
      · rw [List.mem_singleton.1 hn]
        exact mem_preorder_self c
      · exact ih c hc hn
    · cases h

end Node

/-! ## Nested trees -/

/-- No node below the root has the range and the kind of the root. -/
def Tree.HasOwnRoot (t : Tree) : Prop :=
  ∀ n ∈ t.root.children.flatMap Node.preorder, n.isSame t.root = false

instance (t : Tree) : Decidable t.HasOwnRoot :=
  inferInstanceAs
    (Decidable (∀ n ∈ t.root.children.flatMap Node.preorder, n.isSame t.root = false))

theorem Tree.HasOwnRoot.isSame_eq_false {t : Tree} (own : t.HasOwnRoot) {n : Node}
    (h : n ∈ t.root.preorder) (below : n ≠ t.root) : n.isSame t.root = false := by
  rw [Node.preorder_eq, List.mem_cons] at h
  exact own n (h.resolve_left below)

/-- The parts of every node lie within its bytes, and only the root has the range and the kind of the
root. -/
structure Tree.IsNested (t : Tree) : Prop where
  parts : ∀ n ∈ t.root.preorder, ∀ c ∈ n.children, n.start ≤ c.start ∧ c.stop ≤ n.stop
  ownRoot : t.HasOwnRoot

/-- The bytes of a node lie within those of the nodes above it. -/
theorem Tree.IsNested.within {t : Tree} (nested : t.IsNested) {m n : Node}
    (h : m ∈ t.root.preorder) (below : n ∈ m.preorder) : m.start ≤ n.start ∧ n.stop ≤ m.stop := by
  induction m using Node.induction with
  | h m ih =>
    rw [Node.preorder_eq, List.mem_cons, List.mem_flatMap] at below
    rcases below with rfl | ⟨c, hc, hn⟩
    · exact ⟨Nat.le_refl _, Nat.le_refl _⟩
    · have inside := nested.parts m h c hc
      have further := ih c hc (Node.mem_preorder_of_mem_children h hc) hn
      omega

/-! ## Small trees -/

/-- A named node that the parser found no error in. -/
def Tree.named (kind : Kind) (field : Option Field) (start stop : Nat) (children : List Tree) : Tree :=
  .node ⟨kind, start, stop, true, false, false, field⟩ children

/-- A token, from a byte on. -/
def Tree.token (text : String) (start : Nat) : Tree :=
  .node ⟨.other text, start, start + text.utf8ByteSize, false, false, false, none⟩ []

/-- A file with its tree. -/
def Context.ofFile (content : String) (tree : Tree) : Context :=
  ⟨⟨"file", content⟩, ⟨⟨"file", content⟩, .compilationUnit, tree, true⟩, tree.root, rfl⟩

end JavaScope
