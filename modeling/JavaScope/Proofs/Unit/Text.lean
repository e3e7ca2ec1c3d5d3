import JavaScope.Proofs.Text.Boundary
import JavaScope.Proofs.Unit.Attachment
import JavaScope.Unit.Query

/-!
# Located text

A node inside the source splits the source in three: what stands before it, its own text, and what
stands after it. So the location of such a node covers the text that the node has in the parsed
text, whatever the wrapper before it and the bytes of its characters. The queries answer with such
nodes only.
-/

namespace JavaScope

open Text.Utf8

/-- Every node starts and ends between two characters. -/
def Document.IsAligned (d : Document) : Prop :=
  ∀ n ∈ d.root.preorder, IsBoundary n.start d.text ∧ IsBoundary n.stop d.text

instance (d : Document) : Decidable d.IsAligned :=
  inferInstanceAs
    (Decidable (∀ n ∈ d.root.preorder, IsBoundary n.start d.text ∧ IsBoundary n.stop d.text))

namespace ParsedUnit

variable {u : ParsedUnit} {n : Node}

/-! ## Nodes inside the source -/

/-- The bytes of the node lie between the opening and the closing of the wrapper. -/
def IsInside (u : ParsedUnit) (n : Node) : Prop :=
  u.openingBytes ≤ n.start ∧ n.stop ≤ u.contentEnd

theorem text_eq (u : ParsedUnit) :
    u.document.text = u.mode.opening.toList ++ u.source.chars ++ u.mode.closing.toList := by
  simp [document, Mode.wrap, Source.chars]

theorem contentEnd_eq (u : ParsedUnit) :
    u.contentEnd = size (u.mode.opening.toList ++ u.source.chars) := by
  rw [size_append, contentEnd, openingBytes, Source.byteLength, utf8ByteSize_eq_size,
    utf8ByteSize_eq_size]
  rfl

/-- A node that is not synthetic lies inside the source: a fragment has wrapper around it, and a
whole file has nothing. -/
theorem isInside_of_isSynthetic (stop : IsBoundary n.stop u.document.text)
    (real : u.isSynthetic n = false) : u.IsInside n := by
  cases fragment : u.mode.isFragment with
  | true =>
    simp only [isSynthetic, fragment, Bool.true_and, Bool.or_eq_false_iff, decide_eq_false_iff_not,
      Nat.not_lt] at real
    exact real
  | false =>
    have mode : u.mode = .compilationUnit := by
      by_contra other
      rw [Mode.isFragment_iff.2 other] at fragment
      cases fragment
    have opening : u.openingBytes = 0 := by
      rw [openingBytes, mode]
      rfl
    have whole : u.document.text = u.mode.opening.toList ++ u.source.chars := by
      rw [text_eq, mode]
      exact List.append_nil _
    obtain ⟨before, after, split, bytes⟩ := stop
    refine ⟨by omega, ?_⟩
    rw [contentEnd_eq, ← whole, split, size_append, bytes]
    exact Nat.le_add_right _ _

/-- What a node inside the source splits the source into. -/
theorem IsInside.parts (inside : u.IsInside n) (ordered : n.start ≤ n.stop)
    (start : IsBoundary n.start u.document.text) (stop : IsBoundary n.stop u.document.text) :
    ∃ before part after, u.source.chars = before ++ part ++ after ∧
      n.start = u.openingBytes + size before ∧ n.stop = n.start + size part := by
  obtain ⟨first, rest, splitFirst, bytesFirst⟩ := start
  obtain ⟨second, rest', splitSecond, bytesSecond⟩ := stop
  have opening : u.openingBytes = size u.mode.opening.toList := utf8ByteSize_eq_size _
  have text := u.text_eq
  have beyond : size u.mode.opening.toList ≤ size first := by
    rw [← opening, ← bytesFirst]
    exact inside.1
  have within : size second ≤ size (u.mode.opening.toList ++ u.source.chars) := by
    rw [← contentEnd_eq, ← bytesSecond]
    exact inside.2
  have along : size first ≤ size second := by
    rw [← bytesFirst, ← bytesSecond]
    exact ordered
  -- the opening begins the text before the node, which begins the text before its end, which
  -- begins the opening and the source together
  obtain ⟨before, rfl, -⟩ := append_of_size_le
    (by rw [← List.append_assoc, ← text, splitFirst] :
      u.mode.opening.toList ++ (u.source.chars ++ u.mode.closing.toList) = first ++ rest) beyond
  obtain ⟨part, rfl, -⟩ := append_of_size_le (splitFirst.symm.trans splitSecond) along
  obtain ⟨after, split, -⟩ := append_of_size_le (splitSecond.symm.trans text) within
  refine ⟨before, part, after, ?_, ?_, ?_⟩
  · simpa using split
  · rw [bytesFirst, opening, size_append]
  · rw [bytesSecond, bytesFirst, size_append (_ ++ _) part]

/-- The characters of a node inside the source, and its text. -/
theorem IsInside.text (inside : u.IsInside n) (ordered : n.start ≤ n.stop)
    (start : IsBoundary n.start u.document.text) (stop : IsBoundary n.stop u.document.text)
    (below : n.isSame u.tree.root = false) :
    u.source.slice (u.charRange n).1 (u.charRange n).2 = u.document.textOf n := by
  obtain ⟨before, part, after, chars, first, last⟩ := inside.parts ordered start stop
  have bytes : u.source.byteLength = size before + size part + size after := by
    rw [Source.byteLength, utf8ByteSize_eq_size, ← size_append, ← size_append, ← chars]
    rfl
  have shiftedStart :
      min ((n.start : Int) - u.openingBytes).toNat u.source.byteLength = size before := by omega
  have shiftedStop :
      min ((n.stop : Int) - u.openingBytes).toNat u.source.byteLength = size (before ++ part) := by
    rw [size_append]
    omega
  have range : u.charRange n = (before.length, (before ++ part).length) := by
    rw [charRange_of_not_isSame below,
      charOffset_eq_length (by rw [chars, List.append_assoc]) shiftedStart,
      charOffset_eq_length chars shiftedStop]
  have parsed : u.document.text =
      (u.mode.opening.toList ++ before) ++ part ++ (after ++ u.mode.closing.toList) := by
    rw [text_eq, chars]
    simp
  have prefixed : n.start = size (u.mode.opening.toList ++ before) := by
    rw [first, openingBytes, utf8ByteSize_eq_size, size_append]
  rw [range, Source.slice, chars, List.take_left, List.drop_left, Document.textOf, last, prefixed,
    parsed, slice_append]

end ParsedUnit

namespace Context

variable {c : Context} {n : Node}

/-! ## The nodes of an answer -/

theorem mem_of_shortest? {u : ParsedUnit} {nodes : List Node} (h : u.shortest? nodes = some n) :
    n ∈ nodes := by
  have kept : ∀ (rest : List Node) (best : Option Node), rest.foldl u.shorter best = some n →
      best = some n ∨ n ∈ rest := by
    intro rest
    induction rest with
    | nil => exact fun best found => .inl found
    | cons m rest ih =>
      intro best found
      rcases ih _ found with picked | later
      · cases best with
        | none =>
          cases picked
          exact .inr List.mem_cons_self
        | some b =>
          simp only [ParsedUnit.shorter] at picked
          split at picked
          · cases picked
            exact .inr List.mem_cons_self
          · exact .inl picked
      · exact .inr (List.mem_cons_of_mem m later)
  rcases kept nodes none h with nothing | member
  · cases nothing
  · exact member

theorem mem_spanningNodes_of_selectedNode {start stop : Nat}
    (h : c.selectedNode start stop = some n) : n ∈ c.spanningNodes start stop := by
  simp only [selectedNode] at h
  split at h
  · split at h
    · next held =>
      cases h
      exact List.mem_of_mem_filter (mem_of_shortest? held)
    · exact List.mem_of_mem_filter (mem_of_shortest? h)
  · exact mem_of_shortest? h

theorem mem_preorder_of_mem_visited {enters : Node → Bool} (h : n ∈ c.root.visited enters) :
    n ∈ c.unit.tree.root.preorder :=
  Node.mem_preorder_trans (ParsedUnit.mem_preorder_of_root? c.root_eq)
    (Node.mem_preorder_of_mem_visited h)

theorem isReal_of_mem_declarations {kind : UnitKind} {name : Option String}
    (h : n ∈ c.declarations kind name) :
    n ∈ c.unit.tree.root.preorder ∧ c.unit.isSynthetic n = false := by
  obtain ⟨visited, declared⟩ := List.mem_filter.1 h
  refine ⟨mem_preorder_of_mem_visited visited, ?_⟩
  simp only [declares, Bool.and_eq_true, Bool.not_eq_true'] at declared
  exact declared.1.2

theorem isReal_of_selectedNode {start stop : Nat} (h : c.selectedNode start stop = some n) :
    n ∈ c.unit.tree.root.preorder ∧ c.unit.isSynthetic n = false := by
  obtain ⟨visited, spans⟩ := List.mem_filter.1 (mem_spanningNodes_of_selectedNode h)
  refine ⟨mem_preorder_of_mem_visited visited, ?_⟩
  simp only [Bool.and_eq_true, Bool.not_eq_true'] at spans
  exact spans.2

/-! ## Located nodes -/

theorem locateUnitNode_isOk (own : c.unit.source = c.source) (ordered : n.start ≤ n.stop) :
    ∃ l, c.locateUnitNode n = .ok l ∧ l.node = n ∧ l.source = some c.source ∧
      l.start = c.source.positionAt (c.unit.charRange n).1 ∧
      l.stop = c.source.positionAt (c.unit.charRange n).2 := by
  have inside := c.unit.charRange_inside n
  rw [own] at inside
  have along := c.unit.charRange_ordered ordered
  simp [locateUnitNode, Location.of?, along, inside]

/-- The location stands for a node inside the source, and covers the text of that node. -/
structure Shows (c : Context) (l : UnitLocation) : Prop where
  node : l.node ∈ c.unit.tree.root.preorder
  inside : c.unit.IsInside l.node
  source : l.source = some c.source
  text : c.source.textAt l.toLocation = c.document.textOf l.node

variable (own : c.unit.source = c.source) (ordered : c.unit.tree.IsOrdered)
  (aligned : c.document.IsAligned) (root : c.unit.tree.HasOwnRoot)
include own ordered aligned root

theorem shows_of_locateUnitNode (member : n ∈ c.unit.tree.root.preorder)
    (real : c.unit.isSynthetic n = false) {l : UnitLocation} (h : c.locateUnitNode n = .ok l)
    (below : l.node ≠ c.unit.tree.root) : c.Shows l := by
  obtain ⟨_, located, rfl, source, start, stop⟩ := locateUnitNode_isOk own (ordered n member)
  cases h.symm.trans located
  obtain ⟨startAt, stopAt⟩ := aligned l.node member
  have inside := ParsedUnit.isInside_of_isSynthetic stopAt real
  have text := inside.text (ordered l.node member) startAt stopAt
    (root.isSame_eq_false member below)
  refine ⟨member, inside, source, ?_⟩
  rw [Source.textAt, start, stop, Source.offset_positionAt, Source.offset_positionAt, ← own]
  exact text

/-- In every mode a query for units is answered, and each location of the answer, that of the root
of the tree apart, covers the text of its node. -/
theorem locate_shows_text (query : UnitQuery) :
    ∃ found, c.locate query = .ok found ∧
      ∀ l ∈ found, l.node ≠ c.unit.tree.root → c.Shows l := by
  cases query with
  | named kind name scope =>
    have each : ∀ n ∈ c.declarations kind name, ∃ l, c.locateUnitNode n = .ok l := by
      intro n hn
      obtain ⟨l, located, -⟩ :=
        locateUnitNode_isOk own (ordered n (isReal_of_mem_declarations hn).1)
      exact ⟨l, located⟩
    obtain ⟨found, located, origin⟩ := mapM_isOk each
    refine ⟨found.filter fun l => scope.all fun scope => scope.covers l.toLocation, ?_, ?_⟩
    · rw [locate, located]
      rfl
    · intro l hl below
      obtain ⟨n, hn, there⟩ := origin l (List.mem_of_mem_filter hl)
      obtain ⟨member, real⟩ := isReal_of_mem_declarations hn
      exact shows_of_locateUnitNode own ordered aligned root member real there below
  | selected scope =>
    simp only [locate]
    cases selects : c.selectedNode scope.start.offset scope.stop.offset with
    | none => exact ⟨[], rfl, by simp⟩
    | some n =>
      obtain ⟨member, real⟩ := isReal_of_selectedNode selects
      obtain ⟨l, there, -⟩ := locateUnitNode_isOk own (ordered n member)
      refine ⟨[l], ?_, ?_⟩
      · simp only [there]
        rfl
      · intro l' hl' below
        cases List.mem_singleton.1 hl'
        exact shows_of_locateUnitNode own ordered aligned root member real there below

omit own ordered aligned root

/-- Two fields inside their wrapper class; the name of the first one takes two bytes. -/
def accentedUnit : ParsedUnit :=
  ⟨⟨"members", "int é; int y;"⟩, .typeBody, .named .program none 0 32 [
    .named .classDeclaration none 0 32 [
      .token "class" 0, .named .identifier (some .name) 6 13 [],
      .named .classBody (some .body) 14 32 [
        .token "\x7b" 14,
        .named .fieldDeclaration none 16 23 [
          .named .integralType (some .type) 16 19 [.token "int" 16],
          .named .variableDeclarator (some .declarator) 20 22 [
            .named .identifier (some .name) 20 22 []],
          .token ";" 22],
        .named .fieldDeclaration none 24 30 [
          .named .integralType (some .type) 24 27 [.token "int" 24],
          .named .variableDeclarator (some .declarator) 28 29 [
            .named .identifier (some .name) 28 29 []],
          .token ";" 29],
        .token "\x7d" 31]]], true⟩

theorem accentedUnit_hasRoot : accentedUnit.root?.isSome := by
  decide

/-- The source of the two fields, bound to their unit. -/
def accented : Context :=
  ⟨accentedUnit.source, accentedUnit, accentedUnit.root?.get accentedUnit_hasRoot,
    (Option.some_get accentedUnit_hasRoot).symm⟩

theorem locate_shows_text_accented :
    accented.unit.source = accented.source ∧ accented.unit.tree.IsOrdered ∧
      accented.document.IsAligned ∧ accented.unit.tree.HasOwnRoot ∧
      ∃ found, accented.locate (.named .fields none none) = .ok found ∧
        ∀ l ∈ found, l.node ≠ accented.unit.tree.root → accented.Shows l := by
  have ordered : accented.unit.tree.IsOrdered := by decide
  have aligned : accented.document.IsAligned := by decide
  have root : accented.unit.tree.HasOwnRoot := by decide
  exact ⟨rfl, ordered, aligned, root,
    locate_shows_text rfl ordered aligned root (.named .fields none none)⟩

example : (accented.locate (.named .fields none none)).toOption.map
    (·.map fun l => (l.start.offset, l.stop.offset, accented.source.textAt l.toLocation)) =
      some [(0, 6, "int é;"), (7, 13, "int y;")] := by
  decide

end Context

end JavaScope
