import JavaScope.Proofs.Unit.Attachment
import JavaScope.Proofs.Workspace.Binding

/-!
# The first mode that fits

A source is parsed under the configured modes in their order, and its context is bound to the first
unit that fits its mode. Where no node of a tree ends before it starts, nothing can fail once a mode
fits; every failure before leaves the workspace as it was.
-/

namespace JavaScope

/-- A configuration that is accepted has a mode to try. -/
theorem Configuration.modes_ne_nil {modes : List Mode} {sourceLevel : String} {tolerates : Bool}
    {configuration : Configuration} (accepted : of? modes sourceLevel tolerates = .ok configuration) :
    configuration.modes ≠ [] := by
  unfold of? at accepted
  split at accepted
  · cases accepted
  · next some =>
    split at accepted
    · cases accepted
      simpa using some
    · cases accepted

namespace ParsedUnit

variable (grammar : Grammar) (configuration : Configuration) (source : Source)

/-- The unit of a source with content under a mode. -/
def under (mode : Mode) : ParsedUnit :=
  ⟨source, mode, grammar (mode.wrap source.content), configuration.toleratesErrors⟩

variable {grammar configuration source}

/-! ## Trying the modes -/

theorem parse_eq_under (h : source.isBlank = false) (mode : Mode) :
    parse grammar configuration source mode = .ok (under grammar configuration source mode) := by
  rw [parse, h]
  rfl

theorem firstFit_of_isBlank (h : source.isBlank = true) {modes : List Mode} (tries : modes ≠ []) :
    firstFit grammar configuration source modes = .error (.noContent source.name) := by
  cases modes with
  | nil => exact absurd rfl tries
  | cons mode modes =>
    rw [firstFit, parse, h]
    rfl

theorem firstFit_eq_none (h : source.isBlank = false) {modes : List Mode}
    (unfit : ∀ mode ∈ modes, (under grammar configuration source mode).isWellFormed = false) :
    firstFit grammar configuration source modes = .ok none := by
  induction modes with
  | nil => rfl
  | cons mode modes ih =>
    have rest := ih fun other member => unfit other (List.mem_cons_of_mem mode member)
    simp only [firstFit, parse_eq_under h, rest]
    show (if (under grammar configuration source mode).isWellFormed then _ else _) = _
    rw [unfit mode List.mem_cons_self]
    rfl

theorem firstFit_append (h : source.isBlank = false) {before after : List Mode} {mode : Mode}
    (unfit : ∀ other ∈ before, (under grammar configuration source other).isWellFormed = false)
    (fits : (under grammar configuration source mode).isWellFormed = true) :
    firstFit grammar configuration source (before ++ mode :: after) =
      .ok (some (before.length, under grammar configuration source mode)) := by
  induction before with
  | nil =>
    simp only [List.nil_append, firstFit, parse_eq_under h]
    show (if (under grammar configuration source mode).isWellFormed then _ else _) = _
    rw [fits]
    rfl
  | cons other before ih =>
    have rest := ih fun each member => unfit each (List.mem_cons_of_mem other member)
    simp only [List.cons_append, firstFit, parse_eq_under h, rest]
    show (if (under grammar configuration source other).isWellFormed then _ else _) = _
    rw [unfit other List.mem_cons_self]
    rfl

theorem eq_under_of_parse {mode : Mode} {u : ParsedUnit}
    (h : parse grammar configuration source mode = .ok u) :
    u = under grammar configuration source mode := by
  cases blank : source.isBlank with
  | true =>
    rw [parse, blank] at h
    cases h
  | false =>
    rw [parse_eq_under blank] at h
    cases h
    rfl

theorem exists_under_of_firstFit {modes : List Mode} {found : Nat × ParsedUnit}
    (h : firstFit grammar configuration source modes = .ok (some found)) :
    ∃ mode, found.2 = under grammar configuration source mode := by
  induction modes generalizing found with
  | nil => cases h
  | cons mode modes ih =>
    rw [firstFit] at h
    cases parsed : parse grammar configuration source mode with
    | error f =>
      rw [parsed] at h
      cases h
    | ok u =>
      rw [parsed] at h
      change (if u.isWellFormed then _ else _) = _ at h
      split at h
      · cases h
        exact ⟨mode, eq_under_of_parse parsed⟩
      · cases rest : firstFit grammar configuration source modes with
        | error f =>
          rw [rest] at h
          cases h
        | ok later =>
          rw [rest] at h
          change Except.ok (later.map fun each => (each.1 + 1, each.2)) = _ at h
          obtain ⟨each, rfl, rfl⟩ := Option.map_eq_some_iff.1 (Except.ok.inj h)
          have origin := ih rest
          exact origin

/-- What fits is the unit of the source under some mode. -/
theorem exists_under_of_fit {found : Nat × ParsedUnit}
    (h : fit grammar configuration source = .ok found) :
    ∃ mode, found.2 = under grammar configuration source mode := by
  rw [fit] at h
  cases first : firstFit grammar configuration source configuration.modes with
  | error f =>
    rw [first] at h
    cases h
  | ok answer =>
    rw [first] at h
    cases answer with
    | none => cases h
    | some each =>
      cases h
      exact exists_under_of_firstFit first

end ParsedUnit

namespace Workspace

open ParsedUnit

variable {grammar : Grammar} {configuration : Configuration} {source : Source} {w : Workspace}
  {c : ContextId} {entry : ContextEntry}

/-! ## Parsing for a context -/

/-- The warning that a source was not read under the first mode. -/
def modeWarnings (name : String) (place : Nat) (mode : Mode) : List String :=
  if place > 0 then [name ++ " parsed as " ++ mode.name] else []

theorem outcome_parseContext_of_fit (hc : w.context? c = some entry) (free : entry.unit = none)
    {place : Nat} {parsed : ParsedUnit}
    (fits : fit grammar configuration entry.source = .ok (place, parsed)) :
    outcome (parseContext grammar configuration c) w =
      outcome (bind c ⟨w.units.size⟩)
        ((w.noting (modeWarnings entry.source.name place parsed.mode)).withUnit parsed) := by
  rw [parseContext, outcome_bind_of_ok (outcome_context_of_some hc), free]
  have adds : ∀ w : Workspace, outcome (addUnit parsed) w =
      (.ok ⟨w.units.size⟩, w.withUnit parsed) := fun _ => rfl
  simp only [Option.isSome_none, Bool.false_eq_true, if_false, fits]
  rw [outcome_bind_of_ok (outcome_ofExcept _ w), modeWarnings]
  by_cases late : place > 0
  · rw [if_pos late, if_pos late, warn, outcome_bind_of_ok (outcome_modify _ w),
      outcome_bind_of_ok (adds _)]
    rfl
  · rw [if_neg late, if_neg late, outcome_bind_of_ok (adds _)]
    simp only [noting, List.append_nil]

theorem outcome_parseContext_of_unfit (hc : w.context? c = some entry) (free : entry.unit = none)
    {f : Fault} (unfit : fit grammar configuration entry.source = .error f) :
    outcome (parseContext grammar configuration c) w = (.error f, w) := by
  rw [parseContext, outcome_bind_of_ok (outcome_context_of_some hc), free]
  simp only [Option.isSome_none, Bool.false_eq_true, if_false, unfit]
  rfl

theorem outcome_parseContext_of_bound (hc : w.context? c = some entry) {u : UnitId}
    (taken : entry.unit = some u) : outcome (parseContext grammar configuration c) w =
      (.error (.contextTaken (w.displayContext c)), w) := by
  rw [parseContext, outcome_bind_of_ok (outcome_context_of_some hc), taken]
  rfl

/-- Parsing for a context changes nothing, or comes down to binding the context to a new unit of its
own source. -/
theorem outcome_parseContext_cases (grammar : Grammar) (configuration : Configuration)
    (c : ContextId) (w : Workspace) :
    (∃ f, outcome (parseContext grammar configuration c) w = (.error f, w)) ∨
      ∃ entry messages mode, w.context? c = some entry ∧
        outcome (parseContext grammar configuration c) w =
          outcome (bind c ⟨w.units.size⟩)
            ((w.noting messages).withUnit (under grammar configuration entry.source mode)) := by
  cases hc : w.context? c with
  | none => exact .inl ⟨_, outcome_bind_of_error (outcome_context_of_none hc) _⟩
  | some entry =>
    cases free : entry.unit with
    | some u => exact .inl ⟨_, outcome_parseContext_of_bound hc free⟩
    | none =>
      cases fits : fit grammar configuration entry.source with
      | error f => exact .inl ⟨f, outcome_parseContext_of_unfit hc free fits⟩
      | ok found =>
        obtain ⟨place, parsed⟩ := found
        obtain ⟨mode, rfl⟩ := exists_under_of_fit fits
        exact .inr ⟨entry, _, mode, rfl, outcome_parseContext_of_fit hc free fits⟩

theorem outcome_parseSource (grammar : Grammar) (configuration : Configuration) (source : Source)
    (w : Workspace) : outcome (parseSource grammar configuration source) w =
      ((outcome (parseContext grammar configuration ⟨w.contexts.size⟩) (w.withContext source)).1.map
        fun _ => ⟨w.contexts.size⟩,
      (outcome (parseContext grammar configuration ⟨w.contexts.size⟩) (w.withContext source)).2) := by
  have creates : outcome (createContext source) w =
      (.ok ⟨w.contexts.size⟩, w.withContext source) := rfl
  rw [parseSource, outcome_bind_of_ok creates, outcome_bind]
  rcases outcome (parseContext grammar configuration ⟨w.contexts.size⟩) (w.withContext source) with
    ⟨f | ⟨⟩, w'⟩
  · rfl
  · rfl

/-- The second workspace is the first one with one more unit, to which the context is bound, and
with these warnings. -/
structure Adopts (w : Workspace) (c : ContextId) (entry : ContextEntry) (parsed : ParsedUnit)
    (a : Attachment) (messages : List String) (w' : Workspace) : Prop where
  context : w'.context? c = some { entry with
    unit := some ⟨w.units.size⟩, scope := some a.scope, issues := a.issues }
  unit : w'.unit? ⟨w.units.size⟩ = some ⟨parsed, some c⟩
  otherContexts : ∀ other, other ≠ c → w'.context? other = w.context? other
  otherUnits : ∀ other, other ≠ ⟨w.units.size⟩ → w'.unit? other = w.unit? other
  warnings : w'.warnings = w.warnings ++ messages

/-- What parsing the source of a context comes to. -/
inductive Parses (grammar : Grammar) (configuration : Configuration) (w : Workspace)
    (c : ContextId) (entry : ContextEntry) : Except Fault Unit × Workspace → Prop
  | taken {u : UnitId} : entry.unit = some u →
      Parses grammar configuration w c entry (.error (.contextTaken (w.displayContext c)), w)
  | blank : entry.unit = none → entry.source.isBlank = true →
      Parses grammar configuration w c entry (.error (.noContent entry.source.name), w)
  | unfit : entry.unit = none → entry.source.isBlank = false →
      (∀ mode ∈ configuration.modes,
        (under grammar configuration entry.source mode).isWellFormed = false) →
      Parses grammar configuration w c entry
        (.error (.noModeFits entry.source.name configuration.modes), w)
  | bound {before after : List Mode} {mode : Mode} {a : Attachment} {w' : Workspace} :
      entry.unit = none → entry.source.isBlank = false →
      configuration.modes = before ++ mode :: after →
      (∀ other ∈ before, (under grammar configuration entry.source other).isWellFormed = false) →
      (under grammar configuration entry.source mode).isWellFormed = true →
      (under grammar configuration entry.source mode).attachment = .ok a →
      w.Adopts c entry (under grammar configuration entry.source mode) a
        (modeWarnings entry.source.name before.length mode ++
          issueWarnings entry.source.name mode a.issues) w' →
      Parses grammar configuration w c entry (.ok ⟨⟩, w')

theorem outcome_bind_withUnit {parsed : ParsedUnit} {a : Attachment}
    (hc : w.context? c = some entry) (free : entry.unit = none)
    (fits : parsed.isWellFormed = true) (learned : parsed.attachment = .ok a) :
    outcome (bind c ⟨w.units.size⟩) (w.withUnit parsed) =
      (.ok ⟨⟩, ((w.withUnit parsed).linked c ⟨w.units.size⟩ a).noting
        (issueWarnings entry.source.name parsed.mode a.issues)) := by
  have hu : (w.withUnit parsed).unit? ⟨w.units.size⟩ = some ⟨parsed, none⟩ := by
    rw [unit?_withUnit]
    exact if_pos rfl
  have hc' : (w.withUnit parsed).context? c = some entry := hc
  exact outcome_bind_of_free hc' hu free rfl fits learned

theorem adopts_linked (hc : w.context? c = some entry) (parsed : ParsedUnit) (a : Attachment)
    (first second : List String) :
    w.Adopts c entry parsed a (first ++ second)
      ((((w.noting first).withUnit parsed).linked c ⟨w.units.size⟩ a).noting second) where
  context := by simp [context?_linked, hc]
  unit := by
    rw [unit?_noting, unit?_linked, if_pos rfl, unit?_withUnit]
    simp [noting]
  otherContexts other h := by simp [context?_linked, h]
  otherUnits other h := by
    rw [unit?_noting, unit?_linked, if_neg h, unit?_withUnit]
    exact if_neg h
  warnings := List.append_assoc w.warnings first second

theorem parseContext_parses (tries : configuration.modes ≠ []) (hc : w.context? c = some entry)
    (ordered : ∀ mode ∈ configuration.modes,
      (grammar (mode.wrap entry.source.content)).IsOrdered) :
    Parses grammar configuration w c entry (outcome (parseContext grammar configuration c) w) := by
  cases free : entry.unit with
  | some u =>
    rw [outcome_parseContext_of_bound hc free]
    exact .taken free
  | none =>
    cases blank : entry.source.isBlank with
    | true =>
      have unfit : fit grammar configuration entry.source = .error (.noContent entry.source.name) := by
        rw [fit, firstFit_of_isBlank blank tries]
        rfl
      rw [outcome_parseContext_of_unfit hc free unfit]
      exact .blank free blank
    | false =>
      cases first : configuration.modes.find? fun mode =>
          (under grammar configuration entry.source mode).isWellFormed with
      | none =>
        have misfits : ∀ mode ∈ configuration.modes,
            (under grammar configuration entry.source mode).isWellFormed = false := by
          simpa using List.find?_eq_none.1 first
        have unfit : fit grammar configuration entry.source =
            .error (.noModeFits entry.source.name configuration.modes) := by
          rw [fit, firstFit_eq_none blank misfits]
          rfl
        rw [outcome_parseContext_of_unfit hc free unfit]
        exact .unfit free blank misfits
      | some mode =>
        obtain ⟨fits, before, after, modes, earlier⟩ := List.find?_eq_some_iff_append.1 first
        have unfit : ∀ other ∈ before,
            (under grammar configuration entry.source other).isWellFormed = false := by
          simpa using earlier
        have member : mode ∈ configuration.modes := List.mem_of_find?_eq_some first
        have fitted : fit grammar configuration entry.source =
            .ok (before.length, under grammar configuration entry.source mode) := by
          rw [fit, modes, firstFit_append blank unfit fits]
          rfl
        obtain ⟨a, learned, -⟩ := attachment_isOk
          (u := under grammar configuration entry.source mode) (ordered mode member)
          (isSome_root?_of_isWellFormed fits)
        have adopted : (w.noting (modeWarnings entry.source.name before.length mode)).context? c =
            some entry := hc
        have run := (outcome_parseContext_of_fit hc free fitted).trans
          (outcome_bind_withUnit adopted free fits learned)
        rw [run]
        exact .bound free blank modes unfit fits learned (adopts_linked hc _ a _ _)

/-- Parsing for a context or for a source: a bound context is refused, then a blank source, and
otherwise the first mode that fits wins. Nothing can fail once a mode fits, provided that no node of
a tree ends before it starts. Where parsing fails, the workspace is left as it was; a parsed source
only gets its new context before. Every accepted configuration has a mode to try. -/
theorem parse_first_fit (tries : configuration.modes ≠ []) (source : Source) (w : Workspace)
    (ordered : ∀ mode ∈ configuration.modes, (grammar (mode.wrap source.content)).IsOrdered) :
    (∀ c entry, w.context? c = some entry → entry.source = source →
      Parses grammar configuration w c entry
        (outcome (parseContext grammar configuration c) w)) ∧
      ∃ result, Parses grammar configuration (w.withContext source) ⟨w.contexts.size⟩
        ⟨source, none, none, [], none⟩ result ∧
          outcome (parseSource grammar configuration source) w =
            (result.1.map fun _ => ⟨w.contexts.size⟩, result.2) := by
  constructor
  · rintro c entry hc rfl
    exact parseContext_parses tries hc ordered
  · have there : (w.withContext source).context? ⟨w.contexts.size⟩ =
        some ⟨source, none, none, [], none⟩ := by
      rw [context?_withContext]
      exact if_pos rfl
    refine ⟨_, parseContext_parses tries there ordered, ?_⟩
    have creates : outcome (createContext source) w =
        (.ok ⟨w.contexts.size⟩, w.withContext source) := rfl
    rw [parseSource, outcome_bind_of_ok creates, outcome_bind]
    rcases outcome (parseContext grammar configuration ⟨w.contexts.size⟩) (w.withContext source) with
      ⟨f | ⟨⟩, w'⟩
    · rfl
    · rfl

/-- Members of a class, which are no whole file. -/
def memberSource : Source :=
  ⟨"members", "int x;"⟩

/-- A configuration that tries a whole file before members. -/
def filesBeforeMembers : Configuration :=
  ⟨[.compilationUnit, .typeBody], "8", true⟩

/-- The field declaration `int x;` from a byte on, under a kind. -/
def memberTree (kind : Kind) (start : Nat) : Tree :=
  .named kind none start (start + 6) [
    .named .integralType (some .type) start (start + 3) [.token "int" start],
    .named .variableDeclarator (some .declarator) (start + 4) (start + 5) [
      .named .identifier (some .name) (start + 4) (start + 5) []],
    .token ";" (start + 5)]

/-- The trees of the members alone, a local variable then, and inside the wrapper class. -/
def memberGrammar : Grammar := fun text =>
  if text = Mode.typeBody.wrap memberSource.content then
    .named .program none 0 24 [
      .named .classDeclaration none 0 24 [
        .token "class" 0, .named .identifier (some .name) 6 13 [],
        .named .classBody (some .body) 14 24 [
          .token "\x7b" 14, memberTree .fieldDeclaration 16, .token "\x7d" 23]]]
  else .named .program none 0 6 [memberTree .localVariableDeclaration 0]

theorem parse_first_fit_members :
    Configuration.of? filesBeforeMembers.modes "8" true = .ok filesBeforeMembers ∧
      (∀ mode ∈ filesBeforeMembers.modes,
        (memberGrammar (mode.wrap memberSource.content)).IsOrdered) ∧
      let w := empty.withContext memberSource
      Parses memberGrammar filesBeforeMembers w ⟨0⟩ ⟨memberSource, none, none, [], none⟩
        (outcome (parseContext memberGrammar filesBeforeMembers ⟨0⟩) w) := by
  have accepted : Configuration.of? filesBeforeMembers.modes "8" true = .ok filesBeforeMembers := rfl
  have ordered : ∀ mode ∈ filesBeforeMembers.modes,
      (memberGrammar (mode.wrap memberSource.content)).IsOrdered := by decide
  have parses := parse_first_fit (Configuration.modes_ne_nil accepted) memberSource
    (empty.withContext memberSource) ordered
  exact ⟨accepted, ordered, parses.1 ⟨0⟩ _ rfl rfl⟩

example :
    (match outcome (parseSource memberGrammar filesBeforeMembers memberSource) empty with
    | (.ok c, w) => (c.index, (w.context? c).bind (·.unit), w.warnings)
    | (.error _, _) => (1, none, [])) = (0, some ⟨0⟩, ["members parsed as type_body"]) := by
  decide

end Workspace

end JavaScope
