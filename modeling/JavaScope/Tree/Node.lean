import JavaScope.Tree.Kind

/-!
# Syntax trees and their nodes

A tree as the parser hands it over, and a node as a place in it: a subtree together with its
ancestors. Climbing and descending are structural on the two parts. Nodes have no identity but
their key, so distinct nodes of one range and kind count as the same one.
-/

namespace JavaScope

/-! ## Trees -/

/-- What the parser tells about one node: its kind, the bytes it spans, and the field it has in its
parent. -/
structure NodeInfo where
  kind : Kind
  start : Nat
  stop : Nat
  named : Bool
  missing : Bool
  hasError : Bool
  field : Option Field
  deriving DecidableEq

/-- A syntax tree. -/
inductive Tree where
  | node (info : NodeInfo) (children : List Tree)

namespace Tree

/-- What the parser tells about the root of a tree. -/
def info : Tree → NodeInfo
  | node info _ => info

/-- The subtrees below the root. -/
def children : Tree → List Tree
  | node _ children => children

end Tree

/-! ## Nodes -/

/-- A place in a tree: a subtree and its ancestors, nearest first. -/
structure Node where
  tree : Tree
  ancestors : List Tree

/-- What tells nodes apart: the bytes they span and their kind. -/
structure NodeKey where
  start : Nat
  stop : Nat
  kind : Kind
  deriving DecidableEq

/-- The root of a tree, as a place in it. -/
def Tree.root (t : Tree) : Node :=
  ⟨t, []⟩

namespace Node

/-- The kind of a node. -/
def kind (n : Node) : Kind := n.tree.info.kind

/-- The first byte of a node. -/
def start (n : Node) : Nat := n.tree.info.start

/-- The byte after a node. -/
def stop (n : Node) : Nat := n.tree.info.stop

/-- The node stands for a rule of the grammar, and not for a token alone. -/
def isNamed (n : Node) : Bool := n.tree.info.named

/-- The parser added the node to carry on. -/
def isMissing (n : Node) : Bool := n.tree.info.missing

/-- The node or one below it is an error. -/
def hasError (n : Node) : Bool := n.tree.info.hasError

/-- The field of the node in its parent. -/
def field (n : Node) : Option Field := n.tree.info.field

/-- What tells the node apart. -/
def key (n : Node) : NodeKey := ⟨n.start, n.stop, n.kind⟩

/-- Both nodes count as the same one. -/
def isSame (a b : Node) : Bool := a.key == b.key

/-! ## Upwards -/

/-- The node above. -/
def parent (n : Node) : Option Node :=
  match n.ancestors with
  | [] => none
  | up :: rest => some ⟨up, rest⟩

/-- The nodes of a chain of ancestors, nearest first. -/
def ofAncestors : List Tree → List Node
  | [] => []
  | up :: rest => ⟨up, rest⟩ :: ofAncestors rest

/-- The nodes above, nearest first. -/
def above (n : Node) : List Node :=
  ofAncestors n.ancestors

/-- The node and the nodes above it, nearest first. -/
def climb (n : Node) : List Node :=
  n :: n.above

/-! ## Downwards -/

/-- The nodes directly below. -/
def children (n : Node) : List Node :=
  n.tree.children.map fun t => ⟨t, n.tree :: n.ancestors⟩

/-- The nodes directly below that stand for a rule of the grammar. -/
def namedChildren (n : Node) : List Node :=
  n.children.filter isNamed

/-- The nodes directly below with this field. -/
def childrenByField (n : Node) (f : Field) : List Node :=
  n.children.filter fun c => c.field == some f

/-- The first node directly below with this field; a node that holds an error's text has none. -/
def childByField (n : Node) (f : Field) : Option Node :=
  if n.kind.isError then none else n.children.find? fun c => c.field == some f

/-- The first node directly below of this kind. -/
def childOfKind (n : Node) (k : Kind) : Option Node :=
  n.children.find? fun c => c.kind == k

/-- The nodes directly below of these kinds. -/
def childrenOfKinds (n : Node) (ks : List Kind) : List Node :=
  n.children.filter fun c => ks.contains c.kind

/-- The nearest node above of one of these kinds. -/
def ancestorOfKinds (n : Node) (ks : List Kind) : Option Node :=
  n.above.find? fun c => ks.contains c.kind

/-- The topmost node above, or the node itself. -/
def top (n : Node) : Node :=
  match n.ancestors.getLast? with
  | some t => t.root
  | none => n

/-! ## Roles -/

/-- The node is, or stands for, a text that does not fit the grammar. -/
def isErrorNode (n : Node) : Bool :=
  n.kind.isError || n.isMissing

/-- The class body of an instance creation or of an enum constant. -/
def isAnonymousBody (n : Node) : Bool :=
  n.kind == .classBody && n.parent.any (·.kind.isAnonymousOwner)

/-- A block that stands directly in the body of a type. -/
def isInitializerBlock (n : Node) : Bool :=
  n.kind == .block && n.parent.any (·.kind.isTypeBody)

/-! ## Laws -/

theorem mem_children_iff {n c : Node} :
    c ∈ n.children ↔ c.tree ∈ n.tree.children ∧ c.ancestors = n.tree :: n.ancestors := by
  obtain ⟨t, up⟩ := c
  simp only [children, List.mem_map, Node.mk.injEq]
  constructor
  · rintro ⟨t, ht, rfl, rfl⟩
    exact ⟨ht, rfl⟩
  · rintro ⟨ht, rfl⟩
    exact ⟨t, ht, rfl, rfl⟩

theorem parent_of_mem_children {n c : Node} (h : c ∈ n.children) : c.parent = some n := by
  obtain ⟨_, h⟩ := mem_children_iff.1 h
  simp [parent, h]

end Node

end JavaScope
