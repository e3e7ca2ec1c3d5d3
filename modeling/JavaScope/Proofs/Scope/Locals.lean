import JavaScope.Proofs.Environment.Filing
import JavaScope.Proofs.Environment.Growth
import JavaScope.Proofs.Unit.Range

/-!
# The binding of a local variable

In a Java tree a local variable is filed under its declarator or under the name in it. No other
declaration leads to its binding, and it is no constant of an enum.
-/

namespace JavaScope

/-! ## Nodes with a binding of their own -/

/-- Directly below a node that holds code stands one that leads to a binding in a Java tree. No other
declaration leads to it, and it is no constant of an enum. -/
structure LeadsAlone (c : Context) (e : Environment) (around v : Node) (b : BindingId) : Prop where
  java : c.unit.tree.IsJava
  member : around ∈ c.unit.tree.root.preorder
  child : v ∈ around.children
  active : ¬ around.IsInert
  plain : around.kind ≠ .lambdaExpression
  node_ne : ∀ n ∈ c.unit.tree.root.preorder, n ≠ v →
    n.kind.isCodeVariable = true ∨ n.kind.declaresType = true → e.bindingOf n ≠ some b
  name_ne : ∀ up ∈ c.unit.tree.root.preorder, up ≠ v → ∀ n ∈ up.children, n.kind = .identifier →
    e.bindingOf n ≠ some b
  constant_ne : ∀ e', e.Grows e' → ∀ t, ∀ w ∈ e'.store.enumConstants t, BindingId.variable w ≠ b

/-! ## Local variables -/

/-- A declarator of a local variable declaration in a Java tree, with the binding that it
declares. -/
structure IsLocal (c : Context) (e : Environment) (declaration v : Node) (b : BindingId) :
    Prop where
  java : c.unit.tree.IsJava
  ready : e.Ready c
  member : declaration ∈ c.unit.tree.root.preorder
  kind : declaration.kind = .localVariableDeclaration
  declarator : v ∈ declaration.declarators
  binding : e.bindingOf v = some b

namespace IsLocal

variable {c : Context} {e₀ e : Environment} {declaration v n : Node} {b : BindingId}
  (isLocal : IsLocal c e₀ declaration v b)

include isLocal

theorem child : v ∈ declaration.children ∧ v.field = some .declarator := by
  obtain ⟨below, field⟩ := List.mem_filter.1 isLocal.declarator
  exact ⟨below, by simpa using field⟩

theorem named : v.isNamed = true ∧ v.kind = .variableDeclarator :=
  (isLocal.java.fits _ isLocal.member).declarator isLocal.kind v isLocal.declarator

theorem mem : v ∈ c.unit.tree.root.preorder :=
  Node.mem_preorder_of_mem_children isLocal.member isLocal.child.1

/-- The declaration is no node without code, since its declarator stands below. -/
theorem not_inert : ¬ declaration.IsInert := by
  intro inert
  rcases inert with token | header | annotation
  · rw [(isLocal.java.fits _ isLocal.member).isNamed isLocal.child.1] at token
    cases token
  · rw [isLocal.kind] at header
    cases header
  · rw [isLocal.kind] at annotation
    cases annotation

/-- The name of the declarator is a leaf right below it. -/
theorem name_leaf {name : Node} (h : v.nameNode = some name) :
    name ∈ v.children ∧ name.field = some .name ∧
      (name.kind = .identifier ∨ name.kind = .other "underscore_pattern") ∧ name.children = [] := by
  have kind := isLocal.named.2
  rcases Node.nameNode_cases h with ⟨below, field⟩ | ⟨kind', -⟩ | ⟨kind', -⟩
  · have fits := (isLocal.java.fits _ isLocal.mem).name kind name
      (List.mem_filter.2 ⟨below, by simpa using field⟩)
    exact ⟨below, field, fits.1, List.isEmpty_iff.1 fits.2⟩
  · rw [kind] at kind'
    cases kind'
  · rw [kind] at kind'
    cases kind'

/-- The declarator is no name. -/
theorem ne_name {m : Node} (h : m.nameNode = some n) : n ≠ v := by
  rintro rfl
  have field := isLocal.child.2
  rcases Node.nameNode_cases h with ⟨-, named⟩ | ⟨-, -, -, -, named, -⟩ | ⟨-, -, kind⟩
  · rw [field] at named
    cases named
  · rw [field] at named
    cases named
  · rw [isLocal.named.2] at kind
    rcases kind with kind | kind <;> cases kind

/-- The binding is filed under the declarator or under its name. -/
theorem key_cases {k : NodeKey} (h : (k, b) ∈ e₀.declarations) :
    k = v.key ∨ ∃ name, v.nameNode = some name ∧ k = name.key := by
  have sound := isLocal.ready.sound
  rcases Environment.bindingOf_cases isLocal.binding with here | ⟨name, named, there⟩ |
      ⟨up, name, above, named, same, -⟩
  · exact .inl (sound.key_unique h (Environment.mem_of_declaredAt here))
  · exact .inr ⟨name, named, sound.key_unique h (Environment.mem_of_declaredAt there)⟩
  · -- the declarator is not the name of the declaration around it
    exfalso
    rw [Node.parent_of_mem_children isLocal.child.1] at above
    cases above
    have below : name ∈ declaration.children := by
      rcases Node.nameNode_cases named with ⟨below, -⟩ | ⟨kind, -⟩ | ⟨kind, -⟩
      · exact below
      · rw [isLocal.kind] at kind
        cases kind
      · rw [isLocal.kind] at kind
        cases kind
    have member := Node.mem_preorder_of_mem_children isLocal.member below
    exact isLocal.ne_name named (isLocal.java.eq_of_key_eq member isLocal.mem same)

/-- A node that has the name of the declarator as its own name is the declarator. -/
theorem eq_of_name {name : Node} (h : v.nameNode = some name) (h' : n.nameNode = some name) :
    n = v := by
  have below := (isLocal.name_leaf h).1
  rcases Node.nameNode_cases h' with ⟨below', -⟩ | ⟨kind, inner, above, below', -⟩ | ⟨-, below', -⟩
  · exact Node.eq_of_mem_children below' below
  · have up : inner = v := Node.eq_of_mem_children below' below
    subst up
    have same : n = declaration := Node.eq_of_mem_children above isLocal.child.1
    rw [same, isLocal.kind] at kind
    cases kind
  · exact Node.eq_of_mem_children below' below

omit isLocal in
theorem name_mem (h : n ∈ c.unit.tree.root.preorder) {name : Node}
    (named : n.nameNode = some name) : name ∈ c.unit.tree.root.preorder := by
  rcases Node.nameNode_cases named with ⟨below, -⟩ | ⟨-, inner, above, below, -⟩ | ⟨-, below, -⟩
  · exact Node.mem_preorder_of_mem_children h below
  · exact Node.mem_preorder_of_mem_children (Node.mem_preorder_of_mem_children h above) below
  · exact Node.mem_preorder_of_mem_children h below

/-- Only the declarator and its name lead to the binding. -/
theorem eq_of_bindingOf (h : n ∈ c.unit.tree.root.preorder) (hn : e₀.bindingOf n = some b) :
    n = v ∨ v.nameNode = some n := by
  have java := isLocal.java
  rcases Environment.bindingOf_cases hn with here | ⟨name, named, there⟩ |
      ⟨up, name, above, named, same, there⟩
  · rcases isLocal.key_cases (Environment.mem_of_declaredAt here) with key | ⟨own, ownName, key⟩
    · exact .inl (java.eq_of_key_eq h isLocal.mem key)
    · right
      rw [java.eq_of_key_eq h (name_mem isLocal.mem ownName) key]
      exact ownName
  · left
    -- the node is found through its own name, which is that of the declarator
    have hname := name_mem h named
    rcases isLocal.key_cases (Environment.mem_of_declaredAt there) with key | ⟨own, ownName, key⟩
    · exact absurd (java.eq_of_key_eq hname isLocal.mem key) (isLocal.ne_name named)
    · have same := java.eq_of_key_eq hname (name_mem isLocal.mem ownName) key
      rw [same] at named
      exact isLocal.eq_of_name ownName named
  · -- the node is the name of the node above
    have below : n ∈ up.children ∧ up ∈ c.unit.tree.root.preorder := by
      rcases Node.eq_or_child_of_mem_preorder h with rfl | ⟨up', hup', below⟩
      · cases above
      · rw [Node.parent_of_mem_children below] at above
        cases above
        exact ⟨below, hup'⟩
    rcases isLocal.key_cases (Environment.mem_of_declaredAt there) with key | ⟨own, ownName, key⟩
    · right
      have up_eq := java.eq_of_key_eq below.2 isLocal.mem key
      have hname := name_mem below.2 named
      rw [java.eq_of_key_eq hname h same, up_eq] at named
      exact named
    · exfalso
      have up_eq := java.eq_of_key_eq below.2 (name_mem isLocal.mem ownName) key
      have none := below.1
      rw [up_eq, (isLocal.name_leaf ownName).2.2.2] at none
      cases none

/-- No other declaring node leads to the binding. -/
theorem bindingOf_ne (h : n ∈ c.unit.tree.root.preorder) (other : n ≠ v)
    (declaring : n.kind ≠ .identifier ∧ n.kind ≠ .other "underscore_pattern") :
    e₀.bindingOf n ≠ some b := by
  intro hn
  rcases isLocal.eq_of_bindingOf h hn with same | name
  · exact other same
  · rcases (isLocal.name_leaf name).2.2.1 with kind | kind
    · exact declaring.1 kind
    · exact declaring.2 kind

/-- No identifier below another node leads to the binding. -/
theorem bindingOf_identifier_ne {up : Node} (h : up ∈ c.unit.tree.root.preorder)
    (below : n ∈ up.children) (kind : n.kind = .identifier) (other : up ≠ v) :
    e₀.bindingOf n ≠ some b := by
  intro hn
  rcases isLocal.eq_of_bindingOf (Node.mem_preorder_of_mem_children h below) hn with rfl | name
  · rw [isLocal.named.2] at kind
    cases kind
  · exact other (Node.eq_of_mem_children below (isLocal.name_leaf name).1)

/-- The binding is no enum constant. -/
theorem ne_constant (grown : e₀.Grows e) {t : TypeId} {w : VariableId}
    (h : w ∈ e.store.enumConstants t) : BindingId.variable w ≠ b := by
  rintro rfl
  have constant : (e₀.store.variable w).isEnumConstant = true := by
    rw [← grown.store.variable_eq]
    exact (List.mem_filter.1 h).2
  obtain ⟨k, filed⟩ := Environment.exists_mem_of_bindingOf isLocal.binding
  obtain ⟨n, hn, kind, name, named, key⟩ := isLocal.ready.sound.constants k w filed constant
  have hname := name_mem hn named
  rcases isLocal.key_cases filed with own | ⟨own, ownName, own_key⟩
  · exact isLocal.ne_name named (isLocal.java.eq_of_key_eq hname isLocal.mem (key.trans own))
  · have same := isLocal.java.eq_of_key_eq hname (name_mem isLocal.mem ownName)
      (key.trans own_key)
    rw [same] at named
    rw [isLocal.eq_of_name ownName named, isLocal.named.2] at kind
    cases kind

/-- Only the declarator leads to its binding. -/
theorem leadsAlone : LeadsAlone c e₀ declaration v b where
  java := isLocal.java
  member := isLocal.member
  child := isLocal.child.1
  active := isLocal.not_inert
  plain := by rw [isLocal.kind]; nofun
  node_ne n h other declaring := by
    refine isLocal.bindingOf_ne h other ?_
    constructor <;> intro kind <;>
      simp [kind, Kind.isCodeVariable, Kind.declaresType, Kind.isTypeDeclaration] at declaring
  name_ne up h other n below kind := isLocal.bindingOf_identifier_ne h below kind other
  constant_ne e' grown t w h := isLocal.ne_constant grown h

end IsLocal

end JavaScope
