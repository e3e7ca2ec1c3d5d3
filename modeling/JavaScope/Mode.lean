import JavaScope.Text.Blank
import JavaScope.Text.Quoted

/-!
# Parse modes

The grammar entry point that a source is read with. A fragment mode reads the source between the
opening and the closing of a wrapper declaration.
-/

namespace JavaScope

/-- What the text of a source is: a whole file, the members of a class, or the statements of a
method. -/
inductive Mode where
  | compilationUnit
  | typeBody
  | statements
  deriving DecidableEq, Repr

namespace Mode

/-- All modes. -/
def all : List Mode := [.compilationUnit, .typeBody, .statements]

/-- The name that settings and messages use. -/
def name : Mode → String
  | .compilationUnit => "compilation_unit"
  | .typeBody => "type_body"
  | .statements => "statements"

/-- The name in capitals. -/
def label : Mode → String
  | .compilationUnit => "COMPILATION_UNIT"
  | .typeBody => "TYPE_BODY"
  | .statements => "STATEMENTS"

/-- The name that stands for a missing one: of a source, and of the wrapper declarations. -/
def placeholder : String := "MISSING"

/-- The mode reads a part of a file, inside a wrapper. -/
def isFragment : Mode → Bool
  | .compilationUnit => false
  | .typeBody | .statements => true

/-- The wrapper's text before the source. -/
def opening : Mode → String
  | .compilationUnit => ""
  | .typeBody => "class MISSING \x7b\n"
  | .statements => "class MISSING \x7b\nvoid MISSING() \x7b\n"

/-- The wrapper's text after the source. -/
def closing : Mode → String
  | .compilationUnit => ""
  | .typeBody => "\n\x7d"
  | .statements => "\n\x7d\n\x7d"

/-- A mode name as it is compared: without outer blanks, in lower case, with underscores. Only
ASCII letters have a lower-case form that occurs in a mode's name. -/
def normalName (text : String) : String :=
  String.ofList ((Text.strip text.toList).map fun c => if c == '-' then '_' else c.toLower)

/-- The mode of a name, in any case and with hyphens or underscores. -/
def ofName? (text : String) : Option Mode :=
  all.find? fun mode => mode.name == normalName text

/-- A mode inside the text of a list of modes. -/
def display (mode : Mode) : String :=
  "<ParseMode." ++ mode.label ++ ": " ++ Text.quoted mode.name ++ ">"

theorem isFragment_iff {mode : Mode} : mode.isFragment = true ↔ mode ≠ .compilationUnit := by
  cases mode <;> simp [isFragment]

end Mode

end JavaScope
