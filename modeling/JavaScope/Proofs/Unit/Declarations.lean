import JavaScope.Proofs.Unit.Covered

/-!
# Named units

A query for named units walks over the named nodes of a unit. Only named nodes stand above a named
node, so the walk misses none, and whether it keeps a node depends on that node alone: the answer is
a filter of the nodes in the order of the text. A query for a name, or in a scope, filters the answer
of the query without it.
-/

namespace JavaScope

/-- No named node stands below a token. -/
def Tree.HasPlainTokens (t : Tree) : Prop :=
  ∀ n ∈ t.root.preorder, n.isNamed = false → ∀ m ∈ n.preorder, m.isNamed = false

instance (t : Tree) : Decidable t.HasPlainTokens :=
  inferInstanceAs (Decidable (∀ n ∈ t.root.preorder, n.isNamed = false → ∀ m ∈ n.preorder, _))

/-- A walk that enters the named nodes misses no named node. -/
theorem Tree.HasPlainTokens.filter_visited {t : Tree} (plain : t.HasPlainTokens) {r : Node}
    (hr : r ∈ t.root.preorder) {keeps : Node → Bool}
    (named : ∀ n, keeps n = true → n.isNamed = true) :
    (r.visited Node.isNamed).filter keeps = r.preorder.filter keeps := by
  classical
  rw [Node.visited_eq_filter, List.filter_filter]
  apply List.filter_congr
  intro n hn
  rw [← Bool.coe_iff_coe, Bool.and_eq_true, decide_eq_true_iff, and_iff_left_iff_imp]
  intro kept m hm below other
  by_contra token
  have inside := plain m (Node.mem_preorder_trans hr hm) (Bool.not_eq_true _ ▸ token) n below
  rw [named n kept] at inside
  cases inside

/-- The nodes of a tree begin in the order of the text. -/
theorem ParsedUnit.pairwise_charStart {u : ParsedUnit} (tree : u.tree.IsWellNested) {r : Node}
    (hr : r ∈ u.tree.root.preorder) :
    r.preorder.Pairwise fun m n => u.charStart m ≤ u.charStart n := by
  induction r using Node.induction with
  | h r ih =>
    have member : ∀ c ∈ r.children, c ∈ u.tree.root.preorder := fun c hc =>
      Node.mem_preorder_of_mem_children hr hc
    rw [Node.preorder_eq, List.pairwise_cons, List.pairwise_flatMap]
    refine ⟨?_, fun c hc => ih c hc (member c hc), ?_⟩
    · intro n hn
      obtain ⟨c, hc, hn⟩ := List.mem_flatMap.1 hn
      exact (u.charRange_nested tree.toIsNested hr (Node.mem_preorder_of_child hc hn)).1
    · apply (tree.order r hr).imp_of_mem
      intro c c' hc hc' before m hm n hn
      have outer := u.charRange_nested tree.toIsNested (member c hc) hm
      have along := u.charRange_ordered
        (tree.ordered m (Node.mem_preorder_trans (member c hc) hm))
      have gap := charRange_siblings tree.toIsNested hr hc hc' before
      have outer' := u.charRange_nested tree.toIsNested (member c' hc') hn
      simp only [charStart]
      omega

namespace Context

variable {c : Context} {kind : UnitKind} {name : Option String} {scope : Option Location} {n : Node}

/-- The node is a unit of the kind. It introduces the name and lies within the scope, where one is
given. -/
structure IsUnit (c : Context) (kind : UnitKind) (name : Option String) (scope : Option Location)
    (n : Node) : Prop where
  named : n.isNamed = true
  kind : kind.includes n.kind = true
  real : c.unit.isSynthetic n = false
  name : ∀ s ∈ name, s ∈ c.document.declaredNames n
  scope : ∀ l ∈ scope,
    l.start.offset ≤ (c.unit.charRange n).1 ∧ (c.unit.charRange n).2 ≤ l.stop.offset

/-- The visitor that collects the units of a kind, and of a name where one is given. It looks at
named nodes only. -/
def declaringVisitor (c : Context) (kind : UnitKind) (name : Option String) :
    Visitor (StateM (List Node)) :=
  .collecting Node.isNamed (c.declares kind name)

theorem accept_declaringVisitor (c : Context) (kind : UnitKind) (name : Option String) :
    (c.root.accept (c.declaringVisitor kind name)).run [] = (⟨⟩, c.declarations kind name) :=
  Node.run_accept_collecting _ _ c.root

/-! ## What the query tests -/

/-- A unit introduces the name, where one is given. -/
def introduces (c : Context) (name : Option String) (l : UnitLocation) : Bool :=
  name.all fun s => (c.document.declaredNames l.node).contains s

/-- A unit lies within the scope, where one is given. -/
def isWithin (scope : Option Location) (l : UnitLocation) : Bool :=
  scope.all fun s => s.covers l.toLocation

theorem declares_iff : c.declares kind name n = true ↔ c.IsUnit kind name none n := by
  simp only [declares, Bool.and_eq_true, Bool.not_eq_true', Option.all_eq_true_iff_get,
    List.contains_iff_mem]
  constructor
  · rintro ⟨⟨⟨named, kind⟩, real⟩, name⟩
    refine ⟨named, kind, real, ?_, by simp⟩
    rintro s rfl
    exact name rfl
  · intro unit
    refine ⟨⟨⟨unit.named, unit.kind⟩, unit.real⟩, fun given => unit.name _ (Option.get_mem given)⟩

theorem isUnit_name_iff : c.IsUnit kind name scope n ↔
    c.IsUnit kind none scope n ∧ ∀ s ∈ name, s ∈ c.document.declaredNames n := by
  constructor
  · intro unit
    exact ⟨⟨unit.named, unit.kind, unit.real, by simp, unit.scope⟩, unit.name⟩
  · rintro ⟨unit, name⟩
    exact ⟨unit.named, unit.kind, unit.real, name, unit.scope⟩

theorem isUnit_scope_iff : c.IsUnit kind name scope n ↔
    c.IsUnit kind name none n ∧ ∀ l ∈ scope,
      l.start.offset ≤ (c.unit.charRange n).1 ∧ (c.unit.charRange n).2 ≤ l.stop.offset := by
  constructor
  · intro unit
    exact ⟨⟨unit.named, unit.kind, unit.real, unit.name, by simp⟩, unit.scope⟩
  · rintro ⟨unit, scope⟩
    exact ⟨unit.named, unit.kind, unit.real, unit.name, scope⟩

theorem introduces_iff {l : UnitLocation} :
    c.introduces name l = true ↔ ∀ s ∈ name, s ∈ c.document.declaredNames l.node := by
  cases name <;> simp [introduces]

/-- A located unit has its node, and the characters of that. -/
theorem range_of_locateUnitNode {l : UnitLocation} (h : c.locateUnitNode n = .ok l) :
    l.node = n ∧ l.start.offset = (c.unit.charRange n).1 ∧
      l.stop.offset = (c.unit.charRange n).2 := by
  simp only [locateUnitNode, Location.of?] at h
  split at h
  · split at h
    · cases h
      exact ⟨rfl, Source.offset_positionAt _ _, Source.offset_positionAt _ _⟩
    · cases h
  · cases h

theorem isWithin_iff {l : UnitLocation} (located : c.locateUnitNode l.node = .ok l) :
    isWithin scope l = true ↔ ∀ s ∈ scope, s.start.offset ≤ (c.unit.charRange l.node).1 ∧
      (c.unit.charRange l.node).2 ≤ s.stop.offset := by
  obtain ⟨-, start, stop⟩ := range_of_locateUnitNode located
  cases scope <;> simp [isWithin, Location.covers, start, stop]

/-! ## The answer -/

open scoped Classical in
/-- The list locates the nodes that a query for named units is for, in the order of the text. -/
structure Lists (c : Context) (kind : UnitKind) (name : Option String) (scope : Option Location)
    (found : List UnitLocation) : Prop where
  nodes : found.map (·.node) = c.root.preorder.filter fun n => decide (c.IsUnit kind name scope n)
  located : ∀ l ∈ found, c.locateUnitNode l.node = .ok l

/-- A query has one answer. -/
theorem Lists.eq {found found' : List UnitLocation} (lists : c.Lists kind name scope found)
    (lists' : c.Lists kind name scope found') : found = found' := by
  have same : found.map (Except.ok (ε := Fault)) = found'.map .ok := by
    rw [← List.map_congr_left lists.located, ← List.map_congr_left lists'.located]
    have nodes := congrArg (List.map c.locateUnitNode) (lists.nodes.trans lists'.nodes.symm)
    rwa [List.map_map, List.map_map] at nodes
  exact (List.map_injective_iff.2 fun _ _ => Except.ok.inj) same

/-- A query that asks for more filters the answer. -/
theorem Lists.filter {wider : List UnitLocation} {name' : Option String} {scope' : Option Location}
    {keeps : UnitLocation → Bool} (lists : c.Lists kind name scope wider)
    (narrows : ∀ n, c.IsUnit kind name' scope' n → c.IsUnit kind name scope n)
    (kept : ∀ l ∈ wider, c.IsUnit kind name scope l.node →
      (keeps l = true ↔ c.IsUnit kind name' scope' l.node)) :
    c.Lists kind name' scope' (wider.filter keeps) where
  nodes := by
    classical
    have same : wider.filter keeps =
        wider.filter fun l => decide (c.IsUnit kind name' scope' l.node) := by
      apply List.filter_congr
      intro l hl
      have unit : l.node ∈ wider.map (·.node) := List.mem_map_of_mem hl
      rw [lists.nodes, List.mem_filter, decide_eq_true_iff] at unit
      rw [← Bool.coe_iff_coe, decide_eq_true_iff]
      exact kept l hl unit.2
    have nodes := congrArg (List.filter fun n => decide (c.IsUnit kind name' scope' n)) lists.nodes
    rw [List.filter_map, List.filter_filter] at nodes
    rw [same]
    refine nodes.trans (List.filter_congr fun n _ => ?_)
    rw [← Bool.decide_and, decide_eq_decide]
    exact and_iff_left_of_imp (narrows n)
  located l hl := lists.located l (List.mem_of_mem_filter hl)

theorem Lists.filter_name {wider : List UnitLocation} (lists : c.Lists kind none scope wider)
    (name : Option String) : c.Lists kind name scope (wider.filter (c.introduces name)) := by
  apply lists.filter
  · exact fun n unit => (isUnit_name_iff.1 unit).1
  · intro l hl unit
    rw [introduces_iff, isUnit_name_iff]
    exact (and_iff_right unit).symm

theorem Lists.filter_scope {wider : List UnitLocation} (lists : c.Lists kind name none wider)
    (scope : Option Location) : c.Lists kind name scope (wider.filter (isWithin scope)) := by
  apply lists.filter
  · exact fun n unit => (isUnit_scope_iff.1 unit).1
  · intro l hl unit
    rw [isWithin_iff (lists.located l hl), isUnit_scope_iff]
    exact (and_iff_right unit).symm

section Answer

variable (tree : c.unit.tree.IsWellNested) (plain : c.unit.tree.HasPlainTokens)

open scoped Classical in
include plain in
theorem declarations_eq_filter (kind : UnitKind) (name : Option String) :
    c.declarations kind name =
      c.root.preorder.filter fun n => decide (c.IsUnit kind name none n) := by
  rw [declarations, plain.filter_visited (ParsedUnit.mem_preorder_of_root? c.root_eq)]
  · apply List.filter_congr
    intro n hn
    rw [← Bool.coe_iff_coe, decide_eq_true_iff, declares_iff]
  · intro n kept
    exact (declares_iff.1 kept).named

variable (own : c.unit.source = c.source)
include tree plain own

theorem locate_named_isOk (kind : UnitKind) (name : Option String) (scope : Option Location) :
    ∃ found, c.locate (.named kind name scope) = .ok found ∧ c.Lists kind name scope found := by
  have each : ∀ n ∈ c.declarations kind name, ∃ l, c.locateUnitNode n = .ok l := by
    intro n hn
    obtain ⟨l, located, -⟩ :=
      locateUnitNode_isOk own (tree.ordered n (isReal_of_mem_declarations hn).1)
    exact ⟨l, located⟩
  obtain ⟨found, located, origin⟩ := mapM_isOk each
  have lists : c.Lists kind name none found := by
    constructor
    · rw [← declarations_eq_filter plain]
      have nodes : List.Forall₂ (fun l n => l.node = n) found (c.declarations kind name) :=
        ((forall₂_of_mapM located).imp fun n l h => (range_of_locateUnitNode h).1).flip
      rwa [← List.forall₂_map_left_iff, List.forall₂_eq_eq_eq] at nodes
    · intro l hl
      obtain ⟨n, -, there⟩ := origin l hl
      rwa [(range_of_locateUnitNode there).1]
  refine ⟨found.filter (isWithin scope), ?_, lists.filter_scope scope⟩
  rw [locate, located]
  rfl

open scoped Classical in
/-- A query for named units is answered with the nodes that are such units, in the order of the text
and each place of the tree once; so no node is there twice, unless two empty parts of one node are
equal, which nothing tells apart. The units start in this order as well. The answer for a name, or
in a scope, is a filter of the answer without it. -/
theorem locate_named_filters (kind : UnitKind) (name : Option String) (scope : Option Location) :
    ((c.root.accept (c.declaringVisitor kind name)).run []).2 =
        (c.root.preorder.filter fun n => decide (c.IsUnit kind name none n)) ∧
      ∃ found, c.locate (.named kind name scope) = .ok found ∧
        found.map (·.node) =
          (c.root.preorder.filter fun n => decide (c.IsUnit kind name scope n)) ∧
        (∀ l ∈ found, c.locateUnitNode l.node = .ok l) ∧
        ((∀ n ∈ c.root.preorder, (n.children.filter fun m => m.start = m.stop).Nodup) →
          (found.map (·.node)).Nodup) ∧
        (found.Pairwise fun l l' => l.start.offset ≤ l'.start.offset) ∧
        c.locate (.named kind name scope) =
          (·.filter (c.introduces name)) <$> c.locate (.named kind none scope) ∧
        c.locate (.named kind name scope) =
          (·.filter (isWithin scope)) <$> c.locate (.named kind name none) := by
  have top := ParsedUnit.mem_preorder_of_root? c.root_eq
  obtain ⟨found, answered, lists⟩ := locate_named_isOk tree plain own kind name scope
  refine ⟨?_, found, answered, lists.nodes, lists.located, ?_, ?_, ?_, ?_⟩
  · rw [accept_declaringVisitor]
    exact declarations_eq_filter plain kind name
  · intro distinct
    have parts : ∀ n ∈ c.root.preorder, n.children.Nodup := by
      intro n hn
      exact tree.nodup_children (Node.mem_preorder_trans top hn) (distinct n hn)
    rw [lists.nodes]
    exact (Node.nodup_preorder parts).filter _
  · have order := (ParsedUnit.pairwise_charStart tree top).filter fun n =>
      decide (c.IsUnit kind name scope n)
    rw [← lists.nodes, List.pairwise_map] at order
    apply order.imp_of_mem
    intro l l' hl hl' before
    rw [(range_of_locateUnitNode (lists.located l hl)).2.1,
      (range_of_locateUnitNode (lists.located l' hl')).2.1]
    exact before
  · obtain ⟨wider, answered', lists'⟩ := locate_named_isOk tree plain own kind none scope
    rw [answered, answered', lists.eq (lists'.filter_name name)]
    rfl
  · obtain ⟨wider, answered', lists'⟩ := locate_named_isOk tree plain own kind name none
    rw [answered, answered', lists.eq (lists'.filter_scope scope)]
    rfl

end Answer

open scoped Classical in
theorem locate_named_filters_bothFields :
    accented.unit.tree.IsWellNested ∧ accented.unit.tree.HasPlainTokens ∧
      accented.unit.source = accented.source ∧
      ((accented.root.accept (accented.declaringVisitor .fields (some "y"))).run []).2 =
          (accented.root.preorder.filter fun n =>
            decide (accented.IsUnit .fields (some "y") none n)) ∧
      ∃ found, accented.locate (.named .fields (some "y") (some bothFields)) = .ok found ∧
        found.map (·.node) = (accented.root.preorder.filter fun n =>
          decide (accented.IsUnit .fields (some "y") (some bothFields) n)) ∧
        (∀ l ∈ found, accented.locateUnitNode l.node = .ok l) ∧
        ((∀ n ∈ accented.root.preorder, (n.children.filter fun m => m.start = m.stop).Nodup) →
          (found.map (·.node)).Nodup) ∧
        (found.Pairwise fun l l' => l.start.offset ≤ l'.start.offset) ∧
        accented.locate (.named .fields (some "y") (some bothFields)) =
          (·.filter (accented.introduces (some "y"))) <$>
            accented.locate (.named .fields none (some bothFields)) ∧
        accented.locate (.named .fields (some "y") (some bothFields)) =
          (·.filter (isWithin (some bothFields))) <$>
            accented.locate (.named .fields (some "y") none) := by
  have plain : accented.unit.tree.HasPlainTokens := by decide
  exact ⟨accented_isWellNested, plain, rfl,
    locate_named_filters accented_isWellNested plain rfl .fields (some "y") (some bothFields)⟩

-- The scope covers both fields, and the name is that of the second one.
example : (accented.locate (.named .fields (some "y") (some bothFields))).toOption.map
    (·.map fun l => (l.start.offset, l.stop.offset, accented.document.declaredNames l.node)) =
      some [(7, 13, ["y"])] := by
  decide

end Context

end JavaScope
