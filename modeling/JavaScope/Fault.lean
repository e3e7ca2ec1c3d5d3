import JavaScope.Mode

/-!
# Faults

Everything that can go wrong, by cause, with its wording in `Fault.message`. An empty answer is no
fault: a query that finds nothing answers with nothing.
-/

namespace JavaScope

/-- A syntax issue as a fault reports it: its line, counted from zero, and its message. -/
structure IssueNote where
  line : Nat
  message : String
  deriving DecidableEq, Repr

/-- Why a query or a construction fails. -/
inductive Fault where
  /-- A position with a negative coordinate. -/
  | negativePosition (line column offset : Int)
  /-- A range that ends before it starts. -/
  | reversedRange (start stop : Nat)
  /-- A range that ends after the content it points into. -/
  | pastContent (stop length : Nat)
  /-- Offsets that are negative or reversed. -/
  | invalidOffsets (start stop : Int)
  /-- An offset after the end of a named source. -/
  | outsideSource (offset : Int) (source : String) (length : Nat)
  /-- A name that no mode has. -/
  | unknownMode (name : String)
  /-- A name that no mode has, in the settings. -/
  | unknownModeSetting (name : String)
  /-- A configuration without modes. -/
  | noModes
  /-- A configuration that lists a mode twice. -/
  | repeatedModes (modes : List Mode)
  /-- A setting that should be a truth value. -/
  | notBoolean (setting value : String)
  /-- A query for a blank name. -/
  | blankName
  /-- A source that holds only blanks. -/
  | noContent (source : String)
  /-- A context handed to the parser after it was bound. -/
  | contextTaken (context : String)
  /-- A bound context that should be bound again. -/
  | contextBound (context parsed : String)
  /-- A bound unit that should be bound again. -/
  | unitBound (parsed context : String)
  /-- A unit whose root does not fit its mode. -/
  | malformed (source : String) (mode : Mode)
  /-- A source that fits none of the modes. -/
  | noModeFits (source : String) (modes : List Mode)
  /-- A query to a context without a unit. -/
  | unbound (source : String)
  /-- A source that should be free of syntax issues. -/
  | syntaxIssues (source : String) (issues : List IssueNote)
  /-- A method signature asked of another kind of binding. -/
  | notMethod (binding : String)
  /-- A missing binding or node where one is needed. -/
  | missing
  /-- A chain of bindings or expressions that never ends. -/
  | endless
  deriving DecidableEq, Repr

namespace Fault

/-- The family of a fault, by which callers tell faults apart. -/
def family : Fault → String
  | negativePosition .. | reversedRange .. | pastContent .. | invalidOffsets ..
  | outsideSource .. => "InvalidRange"
  | unknownMode .. | blankName => "InvalidName"
  | unknownModeSetting .. | noModes | repeatedModes .. | notBoolean .. => "ConfigurationError"
  | noContent .. => "ParseError"
  | contextTaken .. | contextBound .. | unitBound .. => "AlreadyBoundError"
  | malformed .. | noModeFits .. => "MalformedUnitError"
  | unbound .. => "UnboundContextError"
  | syntaxIssues .. => "SyntaxErrors"
  | notMethod .. => "BindingError"
  | missing => "MissingValue"
  | endless => "EndlessChain"

/-- Issues by message, and by their order in the text where the messages agree. -/
def sortedIssues (issues : List IssueNote) : List IssueNote :=
  issues.mergeSort fun a b => !(b.message < a.message)

/-- The report on syntax issues: a title, the issues counted from one, and their number. -/
def issueReport (source : String) (issues : List IssueNote) : String :=
  let sorted := sortedIssues issues
  let entries := sorted.zipIdx.flatMap fun (issue, i) =>
    [toString (i + 1) ++ ") Error at line " ++ toString (issue.line + 1) ++ ":",
      " " ++ issue.message, ""]
  String.intercalate "\n"
    ([source ++ " contains syntax errors:", ""] ++ entries ++
      [toString sorted.length ++ " error[s]"])

/-- The wording of a fault; a missing value has none. -/
def message : Fault → String
  | negativePosition line column offset =>
    s!"Negative position: line={line}, column={column}, offset={offset}"
  | reversedRange start stop => s!"End offset {stop} precedes start offset {start}"
  | pastContent stop length => s!"End offset {stop} exceeds content length {length}"
  | invalidOffsets start stop => s!"Invalid offsets: [{start}, {stop}]"
  | outsideSource offset source length => s!"Offset {offset} is outside {source} (length {length})"
  | unknownMode name | unknownModeSetting name => s!"Unknown parse mode: {name}"
  | noModes => "At least one parse mode is required"
  | repeatedModes modes =>
    "Duplicate parse modes: (" ++ String.intercalate ", " (modes.map Mode.display) ++ ")"
  | notBoolean setting value => s!"Invalid boolean for {setting}: " ++ Text.quoted value
  | blankName => "Invalid identifier"
  | noContent source => s!"{source} has no content to parse"
  | contextTaken context => s!"{context} is already bound"
  | contextBound context parsed => s!"{context} is already bound to {parsed}"
  | unitBound parsed context => s!"{parsed} is already bound to {context}"
  | malformed source mode => s!"{source} is not a well-formed {mode.name}"
  | noModeFits source modes =>
    s!"{source} is not a well-formed " ++ String.intercalate ", " (modes.map Mode.name)
  | unbound source => s!"Context for {source} has no parsed unit"
  | syntaxIssues source issues => issueReport source issues
  | notMethod binding => s!"Not a method binding: {binding}"
  | missing => ""
  | endless => "A chain of bindings or expressions never ends"

end Fault

end JavaScope
