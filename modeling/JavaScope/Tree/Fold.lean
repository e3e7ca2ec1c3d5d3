import JavaScope.Tree.Node

/-!
# Recursion on nodes

Two ways down a tree. `Node.fold` combines the answers of the nodes directly below; `Node.visited`
lists the nodes that a walk meets when it may stay out of a node. Both unfold one level at a time:
`Node.fold_eq` and `Node.visited_eq`.
-/

namespace JavaScope

mutual

/-- The answer for a tree below these ancestors. -/
def Tree.fold {α : Type _} (step : Node → List (Node × α) → α) (up : List Tree) : Tree → α
  | .node info cs => step ⟨.node info cs, up⟩ (Tree.foldAll step (.node info cs :: up) cs)

/-- The trees as nodes below these ancestors, each with its answer. -/
def Tree.foldAll {α : Type _} (step : Node → List (Node × α) → α) (up : List Tree) :
    List Tree → List (Node × α)
  | [] => []
  | c :: cs => (⟨c, up⟩, Tree.fold step up c) :: Tree.foldAll step up cs

end

mutual

/-- The nodes of a tree below these ancestors that a walk meets, in the order of the text. -/
def Tree.visited (enters : Node → Bool) (up : List Tree) : Tree → List Node
  | .node info cs =>
    ⟨.node info cs, up⟩ ::
      if enters ⟨.node info cs, up⟩ then Tree.visitedAll enters (.node info cs :: up) cs else []

/-- The nodes of several trees that a walk meets, in the order of the text. -/
def Tree.visitedAll (enters : Node → Bool) (up : List Tree) : List Tree → List Node
  | [] => []
  | c :: cs => Tree.visited enters up c ++ Tree.visitedAll enters up cs

end

theorem Tree.foldAll_eq_map {α : Type _} (step : Node → List (Node × α) → α) (up : List Tree)
    (cs : List Tree) :
    Tree.foldAll step up cs = cs.map fun c => (⟨c, up⟩, Tree.fold step up c) := by
  induction cs with
  | nil => simp [foldAll]
  | cons c cs ih => simp [foldAll, ih]

theorem Tree.visitedAll_eq_flatMap (enters : Node → Bool) (up : List Tree) (cs : List Tree) :
    Tree.visitedAll enters up cs = cs.flatMap (Tree.visited enters up) := by
  induction cs with
  | nil => simp [visitedAll]
  | cons c cs ih => simp [visitedAll, ih]

namespace Node

/-- The answer for a node, from the node and the nodes directly below with their answers. -/
def fold {α : Type _} (step : Node → List (Node × α) → α) (n : Node) : α :=
  n.tree.fold step n.ancestors

/-- The nodes that a walk from this node meets, in the order of the text. A walk that does not enter
a node meets nothing below it. -/
def visited (enters : Node → Bool) (n : Node) : List Node :=
  n.tree.visited enters n.ancestors

/-- The node and all nodes below it, in the order of the text. -/
def preorder (n : Node) : List Node :=
  n.visited fun _ => true

theorem fold_eq {α : Type _} (step : Node → List (Node × α) → α) (n : Node) :
    n.fold step = step n (n.children.map fun c => (c, c.fold step)) := by
  obtain ⟨⟨info, cs⟩, up⟩ := n
  simp [fold, Tree.fold, Tree.foldAll_eq_map, children, Tree.children, Function.comp_def]

theorem visited_eq (enters : Node → Bool) (n : Node) :
    n.visited enters =
      n :: if enters n then n.children.flatMap (·.visited enters) else [] := by
  obtain ⟨⟨info, cs⟩, up⟩ := n
  simp only [visited, Tree.visited, Tree.visitedAll_eq_flatMap, children, Tree.children,
    List.flatMap_map]

/-- What a search does after it looked at a node. -/
inductive Step where
  /-- It ends here. -/
  | stop
  /-- It goes on below the node. -/
  | enter
  /-- It goes on after the node. -/
  | skip
  deriving DecidableEq, Repr

/-- Looks at a node and the nodes below it, in the order of the text, until the search ends; answers
whether it did. -/
def search {m : Type → Type} [Monad m] (look : Node → m Step) : Node → m Bool :=
  fold fun n below => do
    match ← look n with
    | .stop => return true
    | .skip => return false
    | .enter => below.anyM fun (_, rest) => rest

/-- The errors below a node, the outermost ones where they lie in each other. -/
def errorNodes : Node → List Node :=
  fold fun n below =>
    if n.hasError then
      below.flatMap fun (c, inner) => if c.isErrorNode then [c] else inner
    else []

end Node

end JavaScope
