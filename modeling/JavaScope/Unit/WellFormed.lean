import JavaScope.Unit.Basic

/-!
# Well-formed units

Whether a tree fits the mode it was parsed under. A whole file needs a type declaration and no error
among its parts; the class body of members and the method body of statements must be the wrapper's
own, closing after the source.
-/

namespace JavaScope

/-- The node closes after the byte `stop`, where one is given. -/
def Node.closesAfter (n : Node) (stop : Option Int) : Bool :=
  !stop.any fun (stop : Int) => (n.stop : Int) ≤ stop

/-- The node is the root of a whole file: it has a type declaration and no error as its parts. -/
def Node.isFileRoot (n : Node) : Bool :=
  n.kind == .program && n.children.any (·.kind.isTypeDeclaration) &&
    !n.children.any (·.kind.isError)

namespace Document

/-- The node is the wrapper class of members, in a tree without errors. -/
def isTypeBodyRoot (d : Document) (n : Node) (stop : Option Int) : Bool :=
  n.kind == .classDeclaration && d.declaredName? n == some Mode.placeholder &&
    (n.childByField .body).any (·.closesAfter stop) && !n.top.hasError

/-- The node is the body of the wrapper method of statements, in a tree without errors unless they
are tolerated. -/
def isStatementsRoot (d : Document) (n : Node) (toleratesErrors : Bool) (stop : Option Int) :
    Bool :=
  n.kind == .block &&
    n.parent.any (fun method => method.kind == .methodDeclaration &&
      d.textOf? (method.childByField .name) == Mode.placeholder) &&
    n.closesAfter stop && (toleratesErrors || !n.top.hasError)

/-- The node can stand for a unit of the mode. Where `stop` is given, the wrapper must close after
that byte. -/
def isWellFormedRoot (d : Document) (n : Option Node) (mode : Mode) (toleratesErrors : Bool)
    (stop : Option Int) : Bool :=
  match n with
  | none => false
  | some n =>
    match mode with
    | .compilationUnit => n.isFileRoot
    | .typeBody => d.isTypeBodyRoot n stop
    | .statements => d.isStatementsRoot n toleratesErrors stop

end Document

/-- The unit has a root that fits its mode. -/
def ParsedUnit.isWellFormed (u : ParsedUnit) : Bool :=
  u.document.isWellFormedRoot u.root? u.mode u.toleratesErrors (some u.contentEnd)

theorem ParsedUnit.isSome_root?_of_isWellFormed {u : ParsedUnit} (h : u.isWellFormed = true) :
    u.root?.isSome := by
  unfold isWellFormed Document.isWellFormedRoot at h
  split at h
  · simp at h
  · next heq => simp [heq]

end JavaScope
