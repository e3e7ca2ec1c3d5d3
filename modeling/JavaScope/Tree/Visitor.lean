import JavaScope.Tree.Node

/-!
# Visitors

A walk over a node and the nodes below it that calls back at each one. The visitor decides whether
the nodes below are visited, and may end the walk; a node that was visited is left, also after the
visitor ended the walk.
-/

namespace JavaScope

/-- What a walk calls back: `visit` says whether to go on below a node, `leave` follows after the
nodes below, and `done` says whether the walk has ended. -/
structure Visitor (m : Type → Type) where
  visit : Node → m Bool
  leave : Node → m Unit
  done : m Bool

mutual

/-- The walk over a tree below these ancestors. -/
def Visitor.drive {m : Type → Type} [Monad m] (v : Visitor m) (up : List Tree) : Tree → m Unit
  | .node info cs => do
    if ← v.done then return
    let enters ← v.visit ⟨.node info cs, up⟩
    let done ← v.done
    if enters && !done then Visitor.driveAll v (.node info cs :: up) cs
    v.leave ⟨.node info cs, up⟩

/-- The walk over several trees below these ancestors. -/
def Visitor.driveAll {m : Type → Type} [Monad m] (v : Visitor m) (up : List Tree) :
    List Tree → m Unit
  | [] => return
  | c :: cs => do
    Visitor.drive v up c
    if ← v.done then return
    Visitor.driveAll v up cs

end

/-- The walk over a node and the nodes below it. -/
def Node.accept {m : Type → Type} [Monad m] (n : Node) (v : Visitor m) : m Unit :=
  v.drive n.ancestors n.tree

end JavaScope
