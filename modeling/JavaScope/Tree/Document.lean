import JavaScope.Tree.Fold
import JavaScope.Text.Utf8
import JavaScope.Text.Blank

/-!
# Documents: trees with their text

The text of a node, and the names and modifiers that a declaration node spells.
-/

namespace JavaScope

/-- A tree together with the text it was parsed from. -/
structure Document where
  text : List Char
  tree : Tree

namespace Document

/-- The root of the tree. -/
def root (d : Document) : Node :=
  d.tree.root

/-- The text that a node spans. -/
def textOf (d : Document) (n : Node) : String :=
  String.ofList (Text.Utf8.slice n.start n.stop d.text)

/-- The text that a node spans, and no text where there is no node. -/
def textOf? (d : Document) (n : Option Node) : String :=
  match n with
  | some n => d.textOf n
  | none => ""

end Document

namespace Node

/-- The node that names a declaration. A varargs parameter has its name on an inner declarator, and
a type parameter without a name field is named by its identifier. -/
def nameNode (n : Node) : Option Node :=
  match n.childByField .name with
  | some name => some name
  | none =>
    match n.kind with
    | .spreadParameter => (n.childOfKind .variableDeclarator).bind (·.childByField .name)
    | .typeParameter => (n.childOfKind .typeIdentifier).or (n.childOfKind .identifier)
    | _ => none

/-- The declarators of a declaration of fields or local variables. -/
def declarators (n : Node) : List Node :=
  n.childrenByField .declarator

/-- The keyword modifiers of a declaration, annotations left out. -/
def modifierKeywords (n : Node) : List String :=
  match n.childOfKind .modifiers with
  | some modifiers => (modifiers.children.filter fun c => !c.isNamed).map (·.kind.name)
  | none => []

end Node

namespace Document

/-- The name that a declaration node introduces. -/
def declaredName? (d : Document) (n : Node) : Option String :=
  n.nameNode.map d.textOf

/-- The name that a declaration node introduces, empty where it has none. -/
def declaredName (d : Document) (n : Node) : String :=
  d.textOf? n.nameNode

/-- All names that a declaration node introduces. -/
def declaredNames (d : Document) (n : Node) : List String :=
  let names := match n.declarators with
    | [] => [d.declaredName n]
    | declarators => declarators.map d.declaredName
  names.filter fun name => !name.isEmpty

end Document

/-- The first characters of the first line of a text, without the blanks around the text. -/
def excerpt (text : String) (width : Nat) : String :=
  String.ofList ((Text.firstLine (Text.strip text.toList)).take width)

end JavaScope
