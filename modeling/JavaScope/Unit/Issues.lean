import JavaScope.Unit.Basic

/-!
# Syntax issues

The errors of a tree, each with a message and its place in the source.
-/

namespace JavaScope

/-- A syntax problem at a place of the source. -/
structure SyntaxIssue where
  message : String
  location : Location

namespace SyntaxIssue

/-- The text of an issue, with its line counted from one. -/
def display (issue : SyntaxIssue) : String :=
  issue.message ++ " (line " ++ toString (issue.location.start.line + 1) ++ ")"

/-- The issue as a fault reports it. -/
def note (issue : SyntaxIssue) : IssueNote :=
  ⟨issue.location.start.line, issue.message⟩

end SyntaxIssue

/-- The message for an error node whose location has this text. -/
def issueMessage (n : Node) (text : String) : String :=
  if n.isMissing then "Missing '" ++ n.kind.name ++ "'"
  else
    let snippet := excerpt text 40
    if snippet.isEmpty then "Syntax error at end of input"
    else "Syntax error at '" ++ snippet ++ "'"

namespace ParsedUnit

/-- The issue that an error node stands for. -/
def issueAt (u : ParsedUnit) (n : Node) : Except Fault SyntaxIssue := do
  let location ← u.locate n
  return ⟨issueMessage n (u.source.textAt location), location⟩

/-- The issues of the tree, in the order of the text. -/
def syntaxIssues (u : ParsedUnit) : Except Fault (List SyntaxIssue) :=
  u.tree.root.errorNodes.mapM u.issueAt

end ParsedUnit

end JavaScope
