import JavaScope.Configuration
import JavaScope.Environment.Complete
import JavaScope.Unit.Issues
import JavaScope.Unit.WellFormed

/-!
# Workspaces

Contexts and parsed units with the links between them. A context is bound to at most one unit and a
unit to at most one context; both links are set together, after everything that can fail. The
warnings that come up on the way are kept in their order.
-/

namespace JavaScope

/-! ## Entries -/

/-- A context of a workspace. -/
structure ContextId where
  index : Nat
  deriving DecidableEq, Repr

/-- A parsed unit of a workspace. -/
structure UnitId where
  index : Nat
  deriving DecidableEq, Repr

/-- A context: its source and, once it is bound, the unit with its scope and its syntax issues. The
environment is there from its first use on. -/
structure ContextEntry where
  source : Source
  unit : Option UnitId
  scope : Option Location
  issues : List SyntaxIssue
  environment : Option Environment

/-- A unit and the context that it is bound to. -/
structure UnitEntry where
  parsed : ParsedUnit
  context : Option ContextId

/-- All contexts and units. -/
structure Workspace where
  contexts : Array ContextEntry
  units : Array UnitEntry
  warnings : List String

/-- An action on a workspace, which outlives a fault. -/
abbrev WorkspaceM := ExceptT Fault (StateM Workspace)

/-- The grammar: the tree of every text. -/
abbrev Grammar := String → Tree

/-- What a context learns from the unit it is bound to: the location of the unit's root, and the
syntax issues. -/
structure Attachment where
  scope : Location
  issues : List SyntaxIssue

namespace ParsedUnit

/-! ## Parsing -/

/-- The unit of a source under a mode. The source may not be blank. -/
def parse (grammar : Grammar) (configuration : Configuration) (source : Source) (mode : Mode) :
    Except Fault ParsedUnit :=
  if source.isBlank then .error (.noContent source.name)
  else .ok ⟨source, mode, grammar (mode.wrap source.content), configuration.toleratesErrors⟩

/-- What a context learns from a unit with a fitting root. -/
def attachment (u : ParsedUnit) : Except Fault Attachment := do
  let scope ← u.locate (← needed u.root?)
  return ⟨scope, ← u.syntaxIssues⟩

/-- The first of some modes whose unit has a fitting root, counted by its place, and that unit. -/
def firstFit (grammar : Grammar) (configuration : Configuration) (source : Source) :
    List Mode → Except Fault (Option (Nat × ParsedUnit))
  | [] => return none
  | mode :: modes => do
    let u ← parse grammar configuration source mode
    if u.isWellFormed then return some (0, u)
    return (← firstFit grammar configuration source modes).map fun (place, u) => (place + 1, u)

/-- The first mode of a configuration whose unit has a fitting root, counted by its place, and that
unit. -/
def fit (grammar : Grammar) (configuration : Configuration) (source : Source) :
    Except Fault (Nat × ParsedUnit) := do
  match ← firstFit grammar configuration source configuration.modes with
  | some found => return found
  | none => throw (.noModeFits source.name configuration.modes)

end ParsedUnit

namespace Workspace

/-! ## Contexts and units -/

/-- The workspace without contexts and units. -/
def empty : Workspace :=
  ⟨#[], #[], []⟩

/-- A context of the workspace. -/
def context? (w : Workspace) (c : ContextId) : Option ContextEntry :=
  w.contexts[c.index]?

/-- A unit of the workspace. -/
def unit? (w : Workspace) (u : UnitId) : Option UnitEntry :=
  w.units[u.index]?

/-- The text of a context. -/
def displayContext (w : Workspace) (c : ContextId) : String :=
  match w.context? c with
  | some entry =>
    let mode := ((entry.unit.bind w.unit?).map fun u => u.parsed.mode.name).getD "None"
    "Context(source=" ++ entry.source.name ++ ", mode=" ++ mode ++ ")"
  | none => ""

/-- The text of a unit. -/
def displayUnit (w : Workspace) (u : UnitId) : String :=
  ((w.unit? u).map (·.parsed.display)).getD ""

/-- A context that must be there. -/
def context (c : ContextId) : WorkspaceM ContextEntry := do
  ofExcept (needed ((← get).context? c))

/-- A unit that must be there. -/
def unit (u : UnitId) : WorkspaceM UnitEntry := do
  ofExcept (needed ((← get).unit? u))

/-- Notes a warning. -/
def warn (message : String) : WorkspaceM Unit :=
  modify fun w => { w with warnings := w.warnings ++ [message] }

/-- Adds a context for a source. -/
def createContext (source : Source) : WorkspaceM ContextId :=
  modifyGet fun w =>
    (⟨w.contexts.size⟩, { w with contexts := w.contexts.push ⟨source, none, none, [], none⟩ })

/-- Adds a unit. -/
def addUnit (parsed : ParsedUnit) : WorkspaceM UnitId :=
  modifyGet fun w => (⟨w.units.size⟩, { w with units := w.units.push ⟨parsed, none⟩ })

/-! ## Binding -/

/-- Links a context and a unit, and warns of syntax issues. -/
def link (c : ContextId) (u : UnitId) (a : Attachment) : WorkspaceM Unit := do
  let mode := (← unit u).parsed.mode
  let name := (← context c).source.name
  modify fun w => { w with
    contexts := w.contexts.modify c.index fun entry =>
      { entry with unit := some u, scope := some a.scope, issues := a.issues }
    units := w.units.modify u.index fun entry => { entry with context := some c } }
  if !a.issues.isEmpty then
    warn (name ++ " parsed as " ++ mode.name ++ " with " ++ toString a.issues.length ++
      " syntax issue(s)")

/-- Binds a context to a unit. Neither may be bound elsewhere, and the unit must fit its mode. -/
def bind (c : ContextId) (u : UnitId) : WorkspaceM Unit := do
  let entry ← context c
  match entry.unit with
  | some other => throw (.contextBound ((← get).displayContext c) ((← get).displayUnit other))
  | none =>
    let unitEntry ← unit u
    if !unitEntry.parsed.isWellFormed then
      throw (.malformed entry.source.name unitEntry.parsed.mode)
    let a ← ofExcept unitEntry.parsed.attachment
    match unitEntry.context with
    | some other =>
      if other = c then link c u a
      else throw (.unitBound ((← get).displayUnit u) ((← get).displayContext other))
    | none => link c u a

/-- Binds a unit, which may not be bound yet, to a context. -/
def bindUnit (u : UnitId) (c : ContextId) : WorkspaceM Unit := do
  match (← unit u).context with
  | some other => throw (.unitBound ((← get).displayUnit u) ((← get).displayContext other))
  | none => bind c u

/-! ## Parsing into a workspace -/

/-- Parses a source under a mode, without binding the unit. -/
def parse (grammar : Grammar) (configuration : Configuration) (source : Source) (mode : Mode) :
    WorkspaceM UnitId := do
  addUnit (← ofExcept (ParsedUnit.parse grammar configuration source mode))

/-- Parses the source of a context, which may not be bound yet, under the first mode that fits, and
binds the context. A mode that is not the first one of the configuration is worth a warning. -/
def parseContext (grammar : Grammar) (configuration : Configuration) (c : ContextId) :
    WorkspaceM Unit := do
  let entry ← context c
  if entry.unit.isSome then throw (.contextTaken ((← get).displayContext c))
  let (place, parsed) ← ofExcept (ParsedUnit.fit grammar configuration entry.source)
  if place > 0 then warn (entry.source.name ++ " parsed as " ++ parsed.mode.name)
  bind c (← addUnit parsed)

/-- Parses a source under the first mode that fits, and binds a new context. -/
def parseSource (grammar : Grammar) (configuration : Configuration) (source : Source) :
    WorkspaceM ContextId := do
  let c ← createContext source
  parseContext grammar configuration c
  return c

/-! ## Bound contexts -/

/-- The unit of a bound context. -/
def unitOf (c : ContextId) : WorkspaceM UnitId := do
  let entry ← context c
  match entry.unit with
  | some u => return u
  | none => throw (.unbound entry.source.name)

/-- A bound context with its source and its unit. -/
def boundContext (c : ContextId) : WorkspaceM Context := do
  let entry ← context c
  let u ← unit (← unitOf c)
  ofExcept (Context.of? entry.source u.parsed)

/-- The location of the unit's root in a bound context. -/
def scopeOf (c : ContextId) : WorkspaceM Location := do
  let _ ← unitOf c
  ofExcept (needed (← context c).scope)

/-- Fails if the context has syntax issues. -/
def ensureWellFormed (c : ContextId) : WorkspaceM Unit := do
  let entry ← context c
  if !entry.issues.isEmpty then
    throw (.syntaxIssues entry.source.name (entry.issues.map SyntaxIssue.note))

/-- The environment of a bound context, built on first use. -/
def environment (c : ContextId) : WorkspaceM Environment := do
  match (← context c).environment with
  | some e => return e
  | none =>
    let e ← ofExcept (Environment.build (← boundContext c))
    modify fun w => { w with contexts := w.contexts.modify c.index fun entry =>
      { entry with environment := some e } }
    return e

/-- An action on the environment of a bound context, which keeps what it made. -/
def onEnvironment {α : Type} (c : ContextId) (action : EnvironmentM α) : WorkspaceM α := do
  let (answer, e) := action.run.run (← environment c)
  modify fun w => { w with contexts := w.contexts.modify c.index fun entry =>
    { entry with environment := some e } }
  ofExcept answer

end Workspace

end JavaScope
