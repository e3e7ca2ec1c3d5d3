import JavaScope.Proofs.Unit.Range
import JavaScope.Workspace
import Mathlib.Data.List.Forall2

/-!
# Units can be attached

Where no node of a tree ends before it starts, every node has a location in the source. So a context
that is bound to a unit with a root always learns its scope and its syntax issues.
-/

namespace JavaScope

/-- No node of the tree ends before it starts. -/
def Tree.IsOrdered (t : Tree) : Prop :=
  ∀ n ∈ t.root.preorder, n.start ≤ n.stop

instance (t : Tree) : Decidable t.IsOrdered :=
  inferInstanceAs (Decidable (∀ n ∈ t.root.preorder, n.start ≤ n.stop))

theorem mapM_isOk {α β : Type} {f : α → Except Fault β} {xs : List α}
    (h : ∀ x ∈ xs, ∃ y, f x = .ok y) :
    ∃ ys, xs.mapM f = .ok ys ∧ ∀ y ∈ ys, ∃ x ∈ xs, f x = .ok y := by
  induction xs with
  | nil => exact ⟨[], rfl, by simp⟩
  | cons x xs ih =>
    obtain ⟨y, hy⟩ := h x List.mem_cons_self
    obtain ⟨ys, hys, origin⟩ := ih fun x' hx' => h x' (List.mem_cons_of_mem x hx')
    refine ⟨y :: ys, ?_, ?_⟩
    · rw [List.mapM_cons, hy, hys]
      rfl
    · intro z hz
      rcases List.mem_cons.1 hz with rfl | hz
      · exact ⟨x, List.mem_cons_self, hy⟩
      · obtain ⟨x', hx', hfx'⟩ := origin z hz
        exact ⟨x', List.mem_cons_of_mem x hx', hfx'⟩

theorem forall₂_of_mapM {α β : Type} {f : α → Except Fault β} {xs : List α} {ys : List β}
    (h : xs.mapM f = .ok ys) : List.Forall₂ (fun x y => f x = .ok y) xs ys := by
  induction xs generalizing ys with
  | nil =>
    cases h
    exact .nil
  | cons x xs ih =>
    rw [List.mapM_cons] at h
    cases first : f x with
    | error e =>
      rw [first] at h
      cases h
    | ok y =>
      cases rest : xs.mapM f with
      | error e =>
        rw [first, rest] at h
        cases h
      | ok ys' =>
        rw [first, rest] at h
        cases h
        exact .cons first (ih rest)

namespace ParsedUnit

/-! ## The root of a unit -/

theorem mem_of_wrapperDeclaration? {d : Document} {kind : Kind} {nodes : List Node} {n : Node}
    (h : wrapperDeclaration? d kind nodes = some n) : n ∈ nodes :=
  List.mem_of_find?_eq_some h

theorem mem_preorder_of_rootFor? {d : Document} {mode : Mode} {n : Node}
    (h : rootFor? d mode = some n) : n ∈ d.root.preorder := by
  have top := Node.mem_preorder_self d.root
  cases mode with
  | compilationUnit =>
    cases h
    exact top
  | typeBody => exact Node.mem_preorder_of_mem_children top (mem_of_wrapperDeclaration? h)
  | statements =>
    obtain ⟨wrapper, first, h⟩ := Option.bind_eq_some_iff.1 h
    obtain ⟨body, second, h⟩ := Option.bind_eq_some_iff.1 h
    obtain ⟨method, third, last⟩ := Option.bind_eq_some_iff.1 h
    have hwrapper := Node.mem_preorder_of_mem_children top (mem_of_wrapperDeclaration? first)
    have hbody := Node.mem_preorder_of_mem_children hwrapper
      (Node.mem_children_of_childByField second).1
    have hmethod := Node.mem_preorder_of_mem_children hbody (mem_of_wrapperDeclaration? third)
    exact Node.mem_preorder_of_mem_children hmethod (Node.mem_children_of_childByField last).1

theorem mem_preorder_of_root? {u : ParsedUnit} {n : Node} (h : u.root? = some n) :
    n ∈ u.tree.root.preorder :=
  mem_preorder_of_rootFor? h

/-! ## Locations of nodes -/

variable (u : ParsedUnit)

theorem locate_isOk {n : Node} (h : n.start ≤ n.stop) :
    ∃ l, u.locate n = .ok l ∧ l.source = some u.source := by
  obtain ⟨l, located, source, -⟩ :=
    Source.location?_isOk (u.charRange_ordered h) (u.charRange_inside n)
  exact ⟨l, located, source⟩

variable {u}

theorem syntaxIssues_isOk (ordered : u.tree.IsOrdered) :
    ∃ issues, u.syntaxIssues = .ok issues ∧
      ∀ issue ∈ issues, issue.location.source = some u.source := by
  have each : ∀ n ∈ u.tree.root.errorNodes,
      ∃ issue, u.issueAt n = .ok issue ∧ issue.location.source = some u.source := by
    intro n hn
    obtain ⟨l, located, source⟩ :=
      u.locate_isOk (ordered n (Node.mem_preorder_of_mem_errorNodes hn))
    exact ⟨⟨issueMessage n (u.source.textAt l), l⟩, by rw [issueAt, located]; rfl, source⟩
  obtain ⟨issues, listed, origin⟩ := mapM_isOk fun n hn => (each n hn).imp fun _ h => h.1
  refine ⟨issues, listed, ?_⟩
  intro issue member
  obtain ⟨n, hn, noted⟩ := origin issue member
  obtain ⟨issue', noted', source⟩ := each n hn
  cases noted.symm.trans noted'
  exact source

theorem attachment_eq {n : Node} (located : u.root? = some n) : u.attachment = (do
    let scope ← u.locate n
    let issues ← u.syntaxIssues
    return ⟨scope, issues⟩) := by
  rw [attachment, located]
  rfl

/-- A unit with a root tells a context its scope and its issues, all in the source of the unit. -/
theorem attachment_isOk (ordered : u.tree.IsOrdered) (root : u.root?.isSome) :
    ∃ a, u.attachment = .ok a ∧ a.scope.source = some u.source ∧
      ∀ issue ∈ a.issues, issue.location.source = some u.source := by
  obtain ⟨n, hn⟩ := Option.isSome_iff_exists.1 root
  obtain ⟨scope, located, source⟩ := u.locate_isOk (ordered n (mem_preorder_of_root? hn))
  obtain ⟨issues, listed, sources⟩ := syntaxIssues_isOk ordered
  refine ⟨⟨scope, issues⟩, ?_, source, sources⟩
  rw [attachment_eq hn, located, listed]
  rfl

end ParsedUnit

end JavaScope
