import JavaScope.Tree.Visitor
import JavaScope.Proofs.Grammar

/-!
# The nodes that a walk meets

A walk meets the nodes that have above them only nodes which it enters. So a walk that keeps the
nodes with a property and stays out of those, but enters all other nodes on the way to one, keeps the
outermost nodes with the property, each place of the tree once and in the order of the text.
-/

namespace JavaScope

namespace Node

/-! ## The nodes above -/

theorem mem_ofAncestors {up : Tree} {before rest : List Tree} :
    (⟨up, rest⟩ : Node) ∈ ofAncestors (before ++ up :: rest) := by
  induction before with
  | nil => exact List.mem_cons_self
  | cons t before ih => exact List.mem_cons_of_mem _ ih

theorem length_lt_of_mem_above {m n : Node} (h : m ∈ n.above) : m.chain.length < n.chain.length := by
  obtain ⟨t, ups⟩ := n
  induction ups generalizing t with
  | nil => cases h
  | cons up rest ih =>
    rcases List.mem_cons.1 h with rfl | h
    · simp [chain]
    · have := ih up h
      simp only [chain, List.length_cons] at *
      omega

/-- The nodes above a node of a tree are the other ones that it stands below. -/
theorem mem_above_iff {t : Tree} {m n : Node} (hn : n ∈ t.root.preorder) :
    m ∈ n.above ↔ n ∈ m.preorder ∧ m ≠ n := by
  constructor
  · intro h
    refine ⟨Tree.mem_preorder_of_mem_climb hn (List.mem_cons_of_mem _ h), ?_⟩
    rintro rfl
    exact Nat.lt_irrefl _ (length_lt_of_mem_above h)
  · rintro ⟨below, other⟩
    obtain ⟨before, split⟩ := chain_suffix_of_mem_preorder below
    cases before with
    | nil =>
      -- equal chains are equal nodes
      refine absurd ?_ other
      obtain ⟨t, a⟩ := m
      obtain ⟨t', a'⟩ := n
      simpa [chain] using split
    | cons t before =>
      have ups : n.ancestors = before ++ m.chain := (List.cons.inj split).2.symm
      rw [above, ups]
      exact mem_ofAncestors

/-- Where no node has one part twice, no node comes twice in the order of the text. -/
theorem nodup_preorder {r : Node} (distinct : ∀ n ∈ r.preorder, n.children.Nodup) :
    r.preorder.Nodup := by
  induction r using induction with
  | h r ih =>
    have below : ∀ c ∈ r.children, c.preorder.Nodup := by
      intro c hc
      exact ih c hc fun n hn => distinct n (mem_preorder_of_child hc hn)
    have apart : r.children.Pairwise fun c c' => c.preorder.Disjoint c'.preorder := by
      apply (distinct r (mem_preorder_self r)).imp_of_mem
      intro c c' hc hc' other n hn hn'
      exact other (eq_of_mem_preorder hc hc' hn hn')
    rw [preorder_eq, List.nodup_cons, List.nodup_flatMap]
    constructor
    · intro again
      obtain ⟨c, hc, hr⟩ := List.mem_flatMap.1 again
      exact not_mem_preorder_of_mem_children hc hr
    · exact ⟨below, apart⟩

/-! ## What a walk meets -/

/-- The walk from `r` that enters such nodes comes to this node: it enters all nodes above. -/
def IsMet (r : Node) (enters : Node → Bool) (n : Node) : Prop :=
  ∀ m ∈ r.preorder, n ∈ m.preorder → m ≠ n → enters m = true

theorem isMet_self (r : Node) (enters : Node → Bool) : r.IsMet enters r := by
  intro m hm above other
  exact absurd (mem_preorder_antisymm above hm) other

theorem isMet_of_child {enters : Node → Bool} {r c n : Node} (hc : c ∈ r.children)
    (hn : n ∈ c.preorder) : r.IsMet enters n ↔ enters r = true ∧ c.IsMet enters n := by
  constructor
  · intro met
    constructor
    · apply met r (mem_preorder_self r) (mem_preorder_of_child hc hn)
      rintro rfl
      exact not_mem_preorder_of_mem_children hc hn
    · intro m hm
      exact met m (mem_preorder_of_child hc hm)
  · rintro ⟨entered, met⟩ m hm above
    rw [preorder_eq, List.mem_cons, List.mem_flatMap] at hm
    rcases hm with rfl | ⟨c', hc', hm⟩
    · exact fun _ => entered
    · rw [eq_of_mem_preorder hc' hc (mem_preorder_trans hm above) hn] at hm
      exact met m hm above

open scoped Classical in
theorem visited_eq_filter (enters : Node → Bool) (r : Node) :
    r.visited enters = r.preorder.filter fun n => decide (r.IsMet enters n) := by
  induction r using induction with
  | h r ih =>
    have parts : ∀ c ∈ r.children, (c.preorder.filter fun n => decide (r.IsMet enters n)) =
        if enters r then c.visited enters else [] := by
      intro c hc
      cases entered : enters r with
      | false =>
        rw [if_neg Bool.false_ne_true, List.filter_eq_nil_iff]
        intro n hn
        simp [isMet_of_child hc hn, entered]
      | true =>
        rw [if_pos rfl, ih c hc]
        apply List.filter_congr
        intro n hn
        simp [isMet_of_child hc hn, entered]
    have met : decide (r.IsMet enters r) = true := decide_eq_true (isMet_self r enters)
    rw [preorder_eq, List.filter_cons, if_pos met, List.filter_flatMap,
      List.flatMap_def (f := fun c : Node => c.preorder.filter _), List.map_congr_left parts, visited_eq]
    split
    · rfl
    · simp

/-! ## Outermost nodes -/

/-- The node has the property and no node above has it. -/
def IsOutermost (P : Node → Prop) (n : Node) : Prop :=
  P n ∧ ∀ m ∈ n.above, ¬ P m

/-- Where a node on the way up has the property, the topmost of them is outermost. -/
theorem exists_isOutermost {P : Node → Prop} {m n : Node} (hm : m ∈ n.climb) (holds : P m) :
    ∃ top ∈ n.climb, top.IsOutermost P := by
  obtain ⟨t, ups⟩ := n
  induction ups generalizing m t with
  | nil =>
    rw [List.mem_singleton.1 hm] at holds
    exact ⟨_, List.mem_cons_self, holds, by simp [above, ofAncestors]⟩
  | cons up rest ih =>
    by_cases higher : ∃ k ∈ (⟨up, rest⟩ : Node).climb, P k
    · obtain ⟨k, hk, holds'⟩ := higher
      obtain ⟨top, there, outermost⟩ := ih holds' up hk
      exact ⟨top, List.mem_cons_of_mem _ there, outermost⟩
    · rcases List.mem_cons.1 hm with rfl | hm
      · exact ⟨_, List.mem_cons_self, holds, fun k hk holds' => higher ⟨k, hk, holds'⟩⟩
      · exact absurd ⟨m, hm, holds⟩ higher

instance {P : Node → Prop} [DecidablePred P] (n : Node) : Decidable (n.IsOutermost P) :=
  inferInstanceAs (Decidable (P n ∧ ∀ m ∈ n.above, ¬ P m))

/-- A walk that keeps the nodes with a property where it meets them, and on the way to one enters
exactly the nodes without it, keeps the outermost ones. -/
theorem filter_visited_eq_outermost {t : Tree} {r : Node} {enters keeps : Node → Bool}
    {P : Node → Prop} [DecidablePred (IsOutermost P)] (hr : r ∈ t.root.preorder)
    (inside : ∀ n ∈ r.preorder, ∀ m ∈ n.above, P m → m ∈ r.preorder)
    (kept : ∀ n ∈ r.preorder, r.IsMet enters n → (keeps n = true ↔ P n))
    (entered : ∀ n, P n → ∀ m ∈ r.preorder, n ∈ m.preorder → (enters m = true ↔ ¬ P m)) :
    (r.visited enters).filter keeps = r.preorder.filter fun n => decide (n.IsOutermost P) := by
  classical
  rw [visited_eq_filter, List.filter_filter]
  apply List.filter_congr
  intro n hn
  have member := mem_preorder_trans hr hn
  rw [← Bool.coe_iff_coe, Bool.and_eq_true, decide_eq_true_iff, decide_eq_true_iff]
  constructor
  · rintro ⟨keeps, met⟩
    have holds := (kept n hn met).1 keeps
    refine ⟨holds, ?_⟩
    intro m hm holds'
    obtain ⟨below, other⟩ := (mem_above_iff member).1 hm
    have within := inside n hn m hm holds'
    exact (entered n holds m within below).1 (met m within below other) holds'
  · rintro ⟨holds, none⟩
    have met : r.IsMet enters n := by
      intro m hm below other
      exact (entered n holds m hm below).2 (none m ((mem_above_iff member).2 ⟨below, other⟩))
    exact ⟨(kept n hn met).2 holds, met⟩

theorem errorNodes_eq_visited {n : Node} (sound : n.isErrorNode = false) :
    n.errorNodes = (n.visited fun m => m.hasError && !m.isErrorNode).filter isErrorNode := by
  induction n using induction with
  | h n ih =>
    have parts : ∀ c ∈ n.children, (if c.isErrorNode then [c] else c.errorNodes) =
        (c.visited fun m => m.hasError && !m.isErrorNode).filter isErrorNode := by
      intro c hc
      cases error : c.isErrorNode with
      | true => simp [visited_eq _ c, error]
      | false => exact ih c hc error
    rw [errorNodes_eq, visited_eq, List.filter_cons_of_neg (by simp [sound])]
    cases n.hasError with
    | false => simp
    | true =>
      simp only [sound, Bool.not_false, Bool.and_self, if_true, List.filter_flatMap]
      rw [List.flatMap_def, List.flatMap_def, List.map_congr_left parts]

end Node

/-! ## Collecting visitors -/

namespace Visitor

/-- The visitor that collects nodes, and decides by the node whether the walk goes on below. It never
ends the walk. -/
def collecting (enters keeps : Node → Bool) : Visitor (StateM (List Node)) where
  visit n := modifyGet fun found => (enters n, if keeps n then found ++ [n] else found)
  leave _ := return
  done := return false

variable {enters keeps : Node → Bool}

theorem run_bind {σ α β : Type} (a : StateM σ α) (f : α → StateM σ β) (s : σ) :
    (a >>= f).run s = (f (a.run s).1).run (a.run s).2 := rfl

theorem run_done_collecting (found : List Node) :
    (collecting enters keeps).done.run found = (false, found) := rfl

theorem run_visit_collecting (n : Node) (found : List Node) :
    ((collecting enters keeps).visit n).run found = (enters n, found ++ [n].filter keeps) := by
  have collects : [n].filter keeps = if keeps n then [n] else [] := List.filter_cons
  rw [collects]
  show (enters n, if keeps n then found ++ [n] else found) = _
  split
  · rfl
  · rw [List.append_nil]

theorem run_drive_node (up : List Tree) (info : NodeInfo) (cs : List Tree) (found : List Node) :
    ((collecting enters keeps).drive up (.node info cs)).run found =
      if enters ⟨.node info cs, up⟩ then
        ((collecting enters keeps).driveAll (.node info cs :: up) cs).run
          (found ++ [⟨.node info cs, up⟩].filter keeps)
      else (⟨⟩, found ++ [⟨.node info cs, up⟩].filter keeps) := by
  rw [drive]
  simp only [run_bind, run_done_collecting, Bool.false_eq_true, if_false, run_visit_collecting,
    Bool.not_false, Bool.and_true]
  split
  · rfl
  · rfl

mutual

theorem run_drive_collecting (up : List Tree) (t : Tree) (found : List Node) :
    ((collecting enters keeps).drive up t).run found =
      (⟨⟩, found ++ (t.visited enters up).filter keeps) := by
  obtain ⟨info, cs⟩ := t
  have below := run_driveAll_collecting (.node info cs :: up) cs
  rw [run_drive_node, Tree.visited]
  split
  · rw [below, List.append_assoc, ← List.filter_append]
    rfl
  · rfl

theorem run_driveAll_collecting (up : List Tree) (ts : List Tree) (found : List Node) :
    ((collecting enters keeps).driveAll up ts).run found =
      (⟨⟩, found ++ (Tree.visitedAll enters up ts).filter keeps) := by
  cases ts with
  | nil =>
    rw [Tree.visitedAll, List.filter_nil, List.append_nil]
    rfl
  | cons t ts =>
    have first := run_drive_collecting up t found
    have rest := run_driveAll_collecting up ts
    rw [driveAll, run_bind, first, run_bind, run_done_collecting, if_neg Bool.false_ne_true, rest,
      Tree.visitedAll, List.filter_append, List.append_assoc]

end

end Visitor

/-- A collecting visitor collects the nodes that it keeps where its walk comes to them. -/
theorem Node.run_accept_collecting (enters keeps : Node → Bool) (n : Node) :
    (n.accept (.collecting enters keeps)).run [] = (⟨⟩, (n.visited enters).filter keeps) :=
  Visitor.run_drive_collecting n.ancestors n.tree []

end JavaScope
