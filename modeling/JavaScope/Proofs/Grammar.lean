import JavaScope.Proofs.Tree
import Mathlib.Data.List.Nodup

/-!
# Where code stands in a tree

What the parser promises about Java trees, as far as walks over code rely on it: the range of a node
lies in that of its parent, and the parts of a declaration or a statement that are neither bodies
nor expressions hold no code, unless it stands in an annotation. From this follows by which part a
path to a statement leaves a node.
-/

namespace JavaScope

/-! ## Kinds -/

namespace Kind

def isAnnotation : Kind → Bool
  | .annotationNode | .markerAnnotationNode => true
  | _ => false

/-- Names, types, modifiers, declared parameters and comments. -/
def isHeader : Kind → Bool
  | .modifiers | .identifier | .scopedIdentifier | .integralType | .floatingPointType | .booleanType
  | .voidType | .arrayType | .genericType | .typeArguments | .typeIdentifier | .scopedTypeIdentifier
  | .annotatedType | .wildcard | .typeParameters | .typeParameter | .typeBound | .typeList
  | .formalParameter | .catchFormalParameter | .catchType | .superclass | .superInterfaces
  | .extendsInterfaces | .thisRef | .superRef => true
  | .other name =>
    ["dimensions", "throws", "permits", "receiver_parameter", "underscore_pattern", "line_comment",
      "block_comment"].contains name
  | _ => false

/-- Type bodies, annotations and labels: what lies below is not code of the declaration around. -/
def isBarrier (k : Kind) : Bool :=
  k.isTypeBody || k.isAnnotation || k == .switchLabel

/-- Nodes that declare a variable in code. -/
def isCodeVariable : Kind → Bool
  | .variableDeclarator | .formalParameter | .spreadParameter | .catchFormalParameter | .resource
  | .enhancedForStatement => true
  | _ => false

/-- Nodes that declare a type or a type parameter. -/
def declaresType (k : Kind) : Bool :=
  k.isTypeDeclaration || k == .typeParameter

theorem isCodeVariable_of_isTypeDeclaration {k : Kind} (type : k.isTypeDeclaration = true) :
    k.isCodeVariable = false := by
  cases k <;> first | rfl | cases type

end Kind

namespace Node

/-! ## Trees that fit the grammar -/

/-- Code may stand below a part of a node. -/
def mayHoldCode (n part : Node) : Bool :=
  match n.kind with
  | .methodDeclaration | .constructorDeclaration | .compactConstructorDeclaration =>
    part.field == some .body || part.field == some .parameters && part.kind == .formalParameters
  | .localVariableDeclaration => part.field == some .declarator
  | .catchClause => part.field == some .body
  | .forStatement =>
    [some .body, some .init, some .condition, some (.other "update")].contains part.field
  | .enhancedForStatement => part.field == some .body || part.field == some .value
  | .lambdaExpression =>
    part.field == some .body || part.field == some .parameters &&
      (part.kind == .formalParameters || part.kind == .other "inferred_parameters")
  | kind => !kind.isHeader

/-- The node has its parts where the grammar puts them. -/
structure Fits (n : Node) : Prop where
  token : n.isNamed = false → n.children.isEmpty = true
  nested : ∀ c ∈ n.children, n.start ≤ c.start ∧ c.stop ≤ n.stop
  code : ∀ c ∈ n.children, c.isNamed = true →
    c.kind.isHeader = true ∨ c.kind.isAnnotation = true ∨ n.mayHoldCode c = true
  single : ∀ f ∈ [Field.body, .parameters, .value], (n.childrenByField f).length ≤ 1
  resources : (n.childrenOfKinds [.resourceSpecification]).length ≤ 1
  member : n.kind.isFieldDeclaration = true → n.parent.any (·.kind.isTypeBody) = true
  group : n.kind = .switchBlockStatementGroup → n.parent.any (·.kind == .switchBlock) = true
  declarator : n.kind = .localVariableDeclaration →
    ∀ c ∈ n.declarators, c.isNamed = true ∧ c.kind = .variableDeclarator
  name : n.kind = .variableDeclarator → ∀ c ∈ n.childrenByField .name,
    (c.kind = .identifier ∨ c.kind = .other "underscore_pattern") ∧ c.children.isEmpty = true

instance (n : Node) : Decidable n.Fits :=
  decidable_of_iff
    ((n.isNamed = false → n.children.isEmpty = true) ∧
      (∀ c ∈ n.children, n.start ≤ c.start ∧ c.stop ≤ n.stop) ∧
      (∀ c ∈ n.children, c.isNamed = true →
        c.kind.isHeader = true ∨ c.kind.isAnnotation = true ∨ n.mayHoldCode c = true) ∧
      (∀ f ∈ [Field.body, .parameters, .value], (n.childrenByField f).length ≤ 1) ∧
      (n.childrenOfKinds [.resourceSpecification]).length ≤ 1 ∧
      (n.kind.isFieldDeclaration = true → n.parent.any (·.kind.isTypeBody) = true) ∧
      (n.kind = .switchBlockStatementGroup → n.parent.any (·.kind == .switchBlock) = true) ∧
      (n.kind = .localVariableDeclaration →
        ∀ c ∈ n.declarators, c.isNamed = true ∧ c.kind = .variableDeclarator) ∧
      (n.kind = .variableDeclarator → ∀ c ∈ n.childrenByField .name,
        (c.kind = .identifier ∨ c.kind = .other "underscore_pattern") ∧ c.children.isEmpty = true))
    ⟨fun ⟨h₁, h₂, h₃, h₄, h₅, h₆, h₇, h₈, h₉⟩ => ⟨h₁, h₂, h₃, h₄, h₅, h₆, h₇, h₈, h₉⟩, fun h =>
      ⟨h.token, h.nested, h.code, h.single, h.resources, h.member, h.group, h.declarator, h.name⟩⟩

/-- A node with a node below it is no token. -/
theorem Fits.isNamed {n c : Node} (fits : n.Fits) (below : c ∈ n.children) : n.isNamed = true := by
  cases named : n.isNamed with
  | true => rfl
  | false =>
    rw [List.isEmpty_iff.1 (fits.token named)] at below
    cases below

end Node

/-- The keys tell the nodes apart, and every node fits the grammar. -/
structure Tree.IsJava (t : Tree) : Prop where
  distinct : (t.root.preorder.map Node.key).Nodup
  fits : ∀ n ∈ t.root.preorder, n.Fits

instance (t : Tree) : Decidable t.IsJava :=
  decidable_of_iff ((t.root.preorder.map Node.key).Nodup ∧ ∀ n ∈ t.root.preorder, n.Fits)
    ⟨fun ⟨distinct, fits⟩ => ⟨distinct, fits⟩, fun h => ⟨h.distinct, h.fits⟩⟩

/-- Of two members of a list one comes before the other. -/
theorem pair_sublist_of_mem {α : Type} {xs : List α} {a b : α} (ha : a ∈ xs) (hb : b ∈ xs)
    (ne : a ≠ b) : [a, b].Sublist xs ∨ [b, a].Sublist xs := by
  induction xs with
  | nil => cases ha
  | cons x xs ih =>
    rcases List.mem_cons.1 ha with here | ha <;> rcases List.mem_cons.1 hb with here' | hb
    · exact absurd (here.trans here'.symm) ne
    · rw [here]
      exact .inl ((List.singleton_sublist.2 hb).cons_cons x)
    · rw [here']
      exact .inr ((List.singleton_sublist.2 ha).cons_cons x)
    · exact (ih ha hb).imp (.cons x) (.cons x)

/-- The only element of a list. -/
theorem eq_singleton {α : Type} {xs : List α} {x : α} (single : xs.length ≤ 1) (member : x ∈ xs) :
    xs = [x] := by
  cases xs with
  | nil => cases member
  | cons y rest =>
    have none : rest = [] := List.eq_nil_of_length_eq_zero (by simpa using single)
    rw [none, List.mem_singleton] at member
    rw [none, member]

namespace Node

/-- The first node below with a field that only one node has. -/
theorem find?_field {n m : Node} {f : Field} (single : (n.childrenByField f).length ≤ 1)
    (hm : m ∈ n.children) (field : m.field = some f) :
    (n.children.find? fun c => c.field == some f) = some m := by
  have member : m ∈ n.childrenByField f := List.mem_filter.2 ⟨hm, by simp [field]⟩
  rw [← List.head?_filter]
  change (n.childrenByField f).head? = some m
  rw [eq_singleton single member]
  rfl

/-- The kinds of the members that hold code. -/
theorem kind_of_isMember {n : Node}
    (h : n.kind.isBodyDeclaration = true ∨ n.isInitializerBlock = true) :
    n.kind ∈ [Kind.methodDeclaration, .constructorDeclaration, .compactConstructorDeclaration,
      .staticInitializer, .block] := by
  rcases h with member | block
  · revert member
    cases n.kind <;> simp [Kind.isBodyDeclaration]
  · have kind : n.kind = .block := by simpa using (Bool.and_eq_true_iff.1 block).1
    simp [kind]

/-! ## Chains of ancestors -/

/-- The subtree of a node and those of its ancestors, nearest first. -/
def chain (n : Node) : List Tree :=
  n.tree :: n.ancestors

theorem chain_suffix_of_mem_preorder {m n : Node} (h : n ∈ m.preorder) : m.chain <:+ n.chain := by
  induction m using induction with
  | h m ih =>
    rw [preorder_eq, List.mem_cons, List.mem_flatMap] at h
    rcases h with rfl | ⟨c, hc, hn⟩
    · exact List.suffix_refl _
    · have down : m.chain <:+ c.chain := by
        rw [chain, chain, (mem_children_iff.1 hc).2]
        exact List.suffix_cons _ _
      exact down.trans (ih c hc hn)

/-- A node lies below only one of the nodes directly below another one. -/
theorem eq_of_mem_preorder {m c c' n : Node} (hc : c ∈ m.children) (hc' : c' ∈ m.children)
    (h : n ∈ c.preorder) (h' : n ∈ c'.preorder) : c = c' := by
  have up := (mem_children_iff.1 hc).2
  have up' := (mem_children_iff.1 hc').2
  have same : c.chain = c'.chain := by
    apply List.IsSuffix.eq_of_length
    · apply List.suffix_of_suffix_length_le (chain_suffix_of_mem_preorder h)
        (chain_suffix_of_mem_preorder h')
      simp [chain, up, up']
    · simp [chain, up, up']
  obtain ⟨t, a⟩ := c
  obtain ⟨t', a'⟩ := c'
  simpa [chain] using same

/-- No node lies below one that is directly below it. -/
theorem not_mem_preorder_of_mem_children {m c : Node} (hc : c ∈ m.children) : m ∉ c.preorder := by
  intro h
  have length := (chain_suffix_of_mem_preorder h).length_le
  simp only [chain, (mem_children_iff.1 hc).2, List.length_cons] at length
  omega

theorem mem_preorder_trans {l m n : Node} (h : m ∈ l.preorder) (h' : n ∈ m.preorder) :
    n ∈ l.preorder := by
  induction m using induction with
  | h m ih =>
    rw [preorder_eq, List.mem_cons, List.mem_flatMap] at h'
    rcases h' with rfl | ⟨c, hc, hn⟩
    · exact h
    · exact ih c hc (mem_preorder_of_mem_children h hc) hn

/-- Nodes below each other are the same. -/
theorem mem_preorder_antisymm {m n : Node} (h : n ∈ m.preorder) (h' : m ∈ n.preorder) : m = n := by
  have down := chain_suffix_of_mem_preorder h
  have up := chain_suffix_of_mem_preorder h'
  have same : m.chain = n.chain :=
    down.eq_of_length (Nat.le_antisymm down.length_le up.length_le)
  obtain ⟨t, a⟩ := m
  obtain ⟨t', a'⟩ := n
  simpa [chain] using same

theorem mem_preorder_of_child {m c n : Node} (hc : c ∈ m.children) (h : n ∈ c.preorder) :
    n ∈ m.preorder :=
  mem_preorder_trans (mem_preorder_of_mem_children (mem_preorder_self m) hc) h

/-- A node below another one is directly below one of the nodes there. -/
theorem eq_or_child_of_mem_preorder {m n : Node} (h : n ∈ m.preorder) :
    n = m ∨ ∃ up ∈ m.preorder, n ∈ up.children := by
  induction m using induction with
  | h m ih =>
    rw [preorder_eq, List.mem_cons, List.mem_flatMap] at h
    rcases h with rfl | ⟨c, hc, hn⟩
    · exact .inl rfl
    · right
      rcases ih c hc hn with rfl | ⟨up, hup, below⟩
      · exact ⟨m, mem_preorder_self m, hc⟩
      · exact ⟨up, mem_preorder_of_child hc hup, below⟩

/-- A walk that meets a node enters all nodes above it on the way. -/
theorem enters_of_mem_visited {enters : Node → Bool} {m k n : Node} (h : n ∈ m.visited enters)
    (hk : k ∈ m.preorder) (below : n ∈ k.preorder) (other : n ≠ k) : enters k = true := by
  induction m using induction with
  | h m ih =>
    rw [visited_eq, List.mem_cons] at h
    rcases h with rfl | h
    · exact absurd (mem_preorder_antisymm hk below) other
    split at h
    · next entered =>
      obtain ⟨c, hc, hn⟩ := List.mem_flatMap.1 h
      rw [preorder_eq, List.mem_cons, List.mem_flatMap] at hk
      rcases hk with rfl | ⟨c', hc', hk⟩
      · exact entered
      · rw [eq_of_mem_preorder hc' hc (mem_preorder_trans hk below) (mem_preorder_of_mem_visited hn)]
          at hk
        exact ih c hc hn hk
    · cases h

/-- Nodes directly above one node are the same. -/
theorem eq_of_mem_children {m m' n : Node} (h : n ∈ m.children) (h' : n ∈ m'.children) : m = m' :=
  Option.some.inj ((parent_of_mem_children h).symm.trans (parent_of_mem_children h'))

theorem preorder_sublist {m n : Node} (h : n ∈ m.preorder) : n.preorder.Sublist m.preorder := by
  induction m using induction with
  | h m ih =>
    rw [preorder_eq m, List.mem_cons, List.mem_flatMap] at h
    rcases h with rfl | ⟨c, hc, hn⟩
    · exact .refl _
    · rw [preorder_eq m]
      apply List.Sublist.cons
      exact (ih c hc hn).trans (List.sublist_flatten_of_mem (List.mem_map_of_mem hc))

theorem nodup_of_nodup_flatMap {nodes : List Node} (h : (nodes.flatMap preorder).Nodup) :
    nodes.Nodup := by
  induction nodes with
  | nil => exact List.nodup_nil
  | cons c rest ih =>
    rw [List.flatMap_cons, List.nodup_append] at h
    obtain ⟨-, hrest, apart⟩ := h
    refine List.nodup_cons.2 ⟨?_, ih hrest⟩
    intro member
    exact apart c (mem_preorder_self c) c (List.mem_flatMap.2 ⟨c, member, mem_preorder_self c⟩) rfl

/-! ## Paths to code -/

/-- No code stands below the node, but for annotations. -/
def IsInert (n : Node) : Prop :=
  n.isNamed = false ∨ n.kind.isHeader = true ∨ n.kind.isAnnotation = true

theorem mayHoldCode_of_isHeader {n : Node} (h : n.kind.isHeader = true) (part : Node) :
    n.mayHoldCode part = false := by
  unfold mayHoldCode
  cases kind : n.kind <;> simp_all [Kind.isHeader]

/-- The second node is directly below the first one, which is no barrier, and no condition or update
of a `for` statement. -/
structure Leads (n c : Node) : Prop where
  below : c ∈ n.children
  passable : n.kind.isBarrier = false
  loop : n.kind = .forStatement → c.field ≠ some .condition ∧ c.field ≠ some (.other "update")

/-- A path of such steps goes from the first node to the second one. -/
inductive Reaches : Node → Node → Prop
  | refl (n : Node) : Reaches n n
  | step {n m c : Node} : n.Leads m → Reaches m c → Reaches n c

namespace Reaches

theorem mem_preorder {n c : Node} (h : n.Reaches c) : c ∈ n.preorder := by
  induction h with
  | refl n => exact mem_preorder_self n
  | step leads _ ih => exact mem_preorder_of_child leads.below ih

theorem trans {n m c : Node} (h : n.Reaches m) (h' : m.Reaches c) : n.Reaches c := by
  induction h with
  | refl n => exact h'
  | step leads _ ih => exact .step leads (ih h')

/-- No barrier stands on a path before its end. -/
theorem passable {n m c : Node} (path : n.Reaches c) (hm : m ∈ n.preorder) (below : c ∈ m.preorder)
    (before : m ≠ c) : m.kind.isBarrier = false := by
  induction path with
  | refl n => exact absurd (mem_preorder_antisymm below hm) before
  | @step n d c leads path ih =>
    rw [preorder_eq, List.mem_cons, List.mem_flatMap] at hm
    rcases hm with rfl | ⟨d', hd', hm⟩
    · exact leads.passable
    · rw [eq_of_mem_preorder hd' leads.below (mem_preorder_trans hm below) path.mem_preorder] at hm
      exact ih hm below before

/-- A path is empty or has a last step. -/
theorem eq_or_last {n c : Node} (h : n.Reaches c) :
    n = c ∨ ∃ m, n.Reaches m ∧ m.Leads c := by
  induction h with
  | refl n => exact .inl rfl
  | step leads _ ih =>
    right
    rcases ih with rfl | ⟨m, reaches, last⟩
    · exact ⟨_, .refl _, leads⟩
    · exact ⟨m, .step leads reaches, last⟩

end Reaches

end Node

namespace Tree

variable {t : Tree} {n m : Node}

/-- The node above a node of a tree is in the tree. -/
theorem mem_of_parent (hn : n ∈ t.root.preorder) (above : n.parent = some m) :
    m ∈ t.root.preorder ∧ n ∈ m.children := by
  rcases Node.eq_or_child_of_mem_preorder hn with rfl | ⟨up, hup, below⟩
  · cases above
  · rw [Node.parent_of_mem_children below] at above
    cases above
    exact ⟨hup, below⟩

theorem mem_of_climb (hn : n ∈ t.root.preorder) (h : m ∈ n.climb) : m ∈ t.root.preorder := by
  obtain ⟨sub, ups⟩ := n
  induction ups generalizing sub with
  | nil =>
    rw [List.mem_singleton.1 h]
    exact hn
  | cons up rest ih =>
    rcases List.mem_cons.1 h with rfl | h
    · exact hn
    · exact ih up (mem_of_parent hn rfl).1 h

/-- A node stands below the nodes that a climb from it meets. -/
theorem mem_preorder_of_mem_climb (hn : n ∈ t.root.preorder) (h : m ∈ n.climb) : n ∈ m.preorder := by
  obtain ⟨sub, ups⟩ := n
  induction ups generalizing sub with
  | nil =>
    rw [List.mem_singleton.1 h]
    exact Node.mem_preorder_self _
  | cons up rest ih =>
    rcases List.mem_cons.1 h with rfl | h
    · exact Node.mem_preorder_self _
    · obtain ⟨hup, below⟩ := mem_of_parent hn rfl
      exact Node.mem_preorder_of_mem_children (ih up hup h) below

end Tree

namespace Tree.IsJava

open Node

variable {t : Tree} (java : t.IsJava)

include java

/-! ## What follows from the grammar -/

theorem eq_of_key_eq {n n' : Node} (h : n ∈ t.root.preorder) (h' : n' ∈ t.root.preorder)
    (same : n.key = n'.key) : n = n' :=
  List.inj_on_of_nodup_map java.distinct h h' same

theorem nodup_children {n : Node} (h : n ∈ t.root.preorder) : n.children.Nodup := by
  have nodup : n.preorder.Nodup := (List.Nodup.of_map _ java.distinct).sublist (preorder_sublist h)
  rw [preorder_eq, List.nodup_cons] at nodup
  exact nodup_of_nodup_flatMap nodup.2

theorem isNested : t.IsNested where
  parts n hn := (java.fits n hn).nested
  ownRoot n hn := by
    rw [isSame, beq_eq_false_iff_ne]
    intro same
    obtain ⟨c, hc, below⟩ := List.mem_flatMap.1 hn
    have top := mem_preorder_self t.root
    rw [java.eq_of_key_eq (mem_preorder_trans (mem_preorder_of_mem_children top hc) below) top same]
      at below
    exact not_mem_preorder_of_mem_children hc below

/-- What the grammar tells of a node stays outside of code along every path. -/
theorem inert_of_reaches {n c : Node} (h : n ∈ t.root.preorder) (reaches : n.Reaches c)
    (inert : n.IsInert) : c.IsInert := by
  induction reaches with
  | refl n => exact inert
  | @step n m c leads _ ih =>
    apply ih (mem_preorder_of_mem_children h leads.below)
    have fits := java.fits n h
    rcases inert with token | header | annotation
    · rw [fits.isNamed leads.below] at token
      cases token
    · cases named : m.isNamed with
      | false => exact .inl named
      | true =>
        rcases fits.code m leads.below named with header' | annotation | code
        · exact .inr (.inl header')
        · exact .inr (.inr annotation)
        · have no := mayHoldCode_of_isHeader header m
          rw [no] at code
          cases code
    · have barrier : n.kind.isBarrier = true := by simp [Kind.isBarrier, annotation]
      rw [leads.passable] at barrier
      cases barrier

/-- A path to code leaves a node by a part that may hold code. -/
theorem mayHoldCode_of_leads {n c s : Node} (h : n ∈ t.root.preorder) (leads : n.Leads c)
    (reaches : c.Reaches s) (code : ¬ s.IsInert) : ¬ c.IsInert ∧ n.mayHoldCode c = true := by
  have active : ¬ c.IsInert := fun inert =>
    code (java.inert_of_reaches (mem_preorder_of_mem_children h leads.below) reaches inert)
  refine ⟨active, ?_⟩
  have named : c.isNamed = true := by
    by_contra token
    exact active (.inl (by simpa using token))
  rcases (java.fits n h).code c leads.below named with header | annotation | code
  · exact absurd (.inr (.inl header)) active
  · exact absurd (.inr (.inr annotation)) active
  · exact code

/-- A field stands in the body of a type, and paths do not go through one. -/
theorem not_isFieldDeclaration_of_leads {n c : Node} (h : n ∈ t.root.preorder) (leads : n.Leads c) :
    c.kind.isFieldDeclaration = false := by
  by_contra declares
  have above := (java.fits c (mem_preorder_of_mem_children h leads.below)).member
    (by simpa using declares)
  rw [parent_of_mem_children leads.below] at above
  have barrier := leads.passable
  simp only [Option.any_some] at above
  simp [Kind.isBarrier, above] at barrier

end Tree.IsJava

end JavaScope
