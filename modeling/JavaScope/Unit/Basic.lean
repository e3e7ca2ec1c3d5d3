import JavaScope.Tree.Document
import JavaScope.Range.Location

/-!
# Parsed units

One source parsed under one mode. The tree spans the source inside the wrapper of the mode; a unit
turns the bytes of that text into characters of the source, cut off at the ends of the source.
Nodes that reach into the wrapper are synthetic.
-/

namespace JavaScope

/-- A source parsed under a mode. -/
structure ParsedUnit where
  source : Source
  mode : Mode
  tree : Tree
  toleratesErrors : Bool

/-- The text that is parsed for a source under a mode. -/
def Mode.wrap (mode : Mode) (content : String) : String :=
  mode.opening ++ content ++ mode.closing

namespace ParsedUnit

/-- The parsed text with its tree. -/
def document (u : ParsedUnit) : Document :=
  ⟨(u.mode.wrap u.source.content).toList, u.tree⟩

/-- The number of bytes before the source in the parsed text. -/
def openingBytes (u : ParsedUnit) : Nat :=
  u.mode.opening.utf8ByteSize

/-- The byte after the source in the parsed text. -/
def contentEnd (u : ParsedUnit) : Nat :=
  u.openingBytes + u.source.byteLength

/-- The character of the source at a byte of the parsed text, cut off at the ends of the source. -/
def charOffset (u : ParsedUnit) (byte : Int) : Nat :=
  let shifted := min (byte - u.openingBytes).toNat u.source.byteLength
  (u.source.charOffset shifted).toNat

/-- The characters of the source that a node spans. The root of a whole file spans all of it. -/
def charRange (u : ParsedUnit) (n : Node) : Nat × Nat :=
  if u.mode == .compilationUnit && n.isSame u.tree.root then (0, u.source.length)
  else (u.charOffset n.start, u.charOffset n.stop)

/-- The first character of a node. -/
def charStart (u : ParsedUnit) (n : Node) : Nat :=
  (u.charRange n).1

/-- The node reaches into the wrapper that a fragment is parsed in. -/
def isSynthetic (u : ParsedUnit) (n : Node) : Bool :=
  u.mode.isFragment && (n.start < u.openingBytes || u.contentEnd < n.stop)

/-- The location of a node. -/
def locate (u : ParsedUnit) (n : Node) : Except Fault Location :=
  u.source.location? (u.charRange n).1 (u.charRange n).2

/-- The first of these nodes that declares the placeholder. -/
def wrapperDeclaration? (d : Document) (kind : Kind) (nodes : List Node) : Option Node :=
  nodes.find? fun n => n.kind == kind && d.declaredName? n == some Mode.placeholder

/-- The node that stands for a unit of a mode: the root of a whole file, the wrapper class, or the
body of the wrapper method; none if the tree does not show the wrapper. -/
def rootFor? (d : Document) : Mode → Option Node
  | .compilationUnit => some d.root
  | .typeBody => wrapperDeclaration? d .classDeclaration d.root.children
  | .statements => do
    let wrapper ← wrapperDeclaration? d .classDeclaration d.root.children
    let body ← wrapper.childByField .body
    let method ← wrapperDeclaration? d .methodDeclaration body.children
    method.childByField .body

/-- The node that stands for the unit. -/
def root? (u : ParsedUnit) : Option Node :=
  rootFor? u.document u.mode

/-- The unit has no declaration or statement of its own. -/
def isEmpty (u : ParsedUnit) : Bool :=
  match u.root? with
  | none => true
  | some root =>
    match u.mode with
    | .typeBody => !(root.childByField .body).any fun body => !body.namedChildren.isEmpty
    | _ => root.namedChildren.isEmpty

/-- The text of a unit. -/
def display (u : ParsedUnit) : String :=
  "ParsedUnit(source=" ++ u.source.name ++ ", mode=" ++ u.mode.name ++ ", root=" ++
    (u.root?.map (·.kind.name)).getD "None" ++ ")"

end ParsedUnit

end JavaScope
