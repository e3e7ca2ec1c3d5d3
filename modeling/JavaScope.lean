import JavaScope.Source.Words
import JavaScope.Configuration
import JavaScope.Tree.Visitor
import JavaScope.Binding.Request
import JavaScope.Unit.WellFormed
import JavaScope.Unit.Issues
import JavaScope.Unit.Query
import JavaScope.Workspace
import JavaScope.Scope.Query
import JavaScope.Proofs.Environment.Composition
import JavaScope.Proofs.Environment.Derived
import JavaScope.Proofs.Environment.Names
import JavaScope.Proofs.Environment.Owners
import JavaScope.Proofs.Scope.Access
import JavaScope.Proofs.Scope.Agreement
import JavaScope.Proofs.Scope.ArrayCreation
import JavaScope.Proofs.Scope.Blocks
import JavaScope.Proofs.Scope.Combined
import JavaScope.Proofs.Unit.Attachment
import JavaScope.Proofs.Unit.Nesting
import JavaScope.Proofs.Scope.Feed
import JavaScope.Proofs.Scope.InScope
import JavaScope.Proofs.Text.Boundary
import JavaScope.Proofs.Unit.Text
import JavaScope.Proofs.Unit.Selection
import JavaScope.Proofs.Unit.Declarations
import JavaScope.Proofs.Workspace.Binding
import JavaScope.Proofs.Workspace.Links
import JavaScope.Proofs.Workspace.Sources
import JavaScope.Proofs.Workspace.Span
import JavaScope.Proofs.Workspace.Issues
import JavaScope.Proofs.Source.Offsets
import JavaScope.Proofs.Source.Lines
import JavaScope.Proofs.Environment.Kinds
import JavaScope.Proofs.Scope.Hiding
import JavaScope.Proofs.Scope.OneKind
import JavaScope.Proofs.Scope.Hierarchy
import JavaScope.Proofs.Request.Collection
import JavaScope.Proofs.Environment.Qualified
import JavaScope.Proofs.Scope.QualifiedMembers
import JavaScope.Proofs.Scope.LocalTypes
import JavaScope.Proofs.Scope.MethodLocals
import JavaScope.Proofs.Binding.Supertypes
import JavaScope.Proofs.Scope.Calls
import JavaScope.Proofs.Binding.Signature
import JavaScope.Proofs.Request.Canonical
import JavaScope.Proofs.Environment.TopLevel
import JavaScope.Proofs.Range.Relation
import JavaScope.Proofs.Source.Words
import JavaScope.Proofs.Environment.Keys
import JavaScope.Proofs.Environment.Sharing
import JavaScope.Proofs.Environment.NamesApart
