import JavaScope.Proofs.Action
import JavaScope.Workspace

/-!
# What binding does

A context and a unit are bound by setting both links at once. `bind_cases` says all that an attempt
can come to: it is refused and changes nothing, or neither side was bound elsewhere and both links
are set.
-/

namespace JavaScope

namespace Workspace

variable {w : Workspace} {c : ContextId} {u : UnitId} {entry : ContextEntry} {unitEntry : UnitEntry}

/-! ## Entries that must be there -/

theorem outcome_context (c : ContextId) (w : Workspace) :
    outcome (context c) w = (needed (w.context? c), w) := by
  rw [context, outcome_bind_of_ok (outcome_get w), outcome_ofExcept]

theorem outcome_unit (u : UnitId) (w : Workspace) :
    outcome (unit u) w = (needed (w.unit? u), w) := by
  rw [unit, outcome_bind_of_ok (outcome_get w), outcome_ofExcept]

theorem outcome_context_of_some (h : w.context? c = some entry) :
    outcome (context c) w = (.ok entry, w) := by
  rw [outcome_context, h]
  rfl

theorem outcome_unit_of_some (h : w.unit? u = some unitEntry) :
    outcome (unit u) w = (.ok unitEntry, w) := by
  rw [outcome_unit, h]
  rfl

theorem outcome_context_of_none (h : w.context? c = none) :
    outcome (context c) w = (.error .missing, w) := by
  rw [outcome_context, h]
  rfl

theorem outcome_unit_of_none (h : w.unit? u = none) :
    outcome (unit u) w = (.error .missing, w) := by
  rw [outcome_unit, h]
  rfl

/-! ## Linked entries -/

/-- The workspace with these warnings after its own. -/
def noting (w : Workspace) (messages : List String) : Workspace :=
  { w with warnings := w.warnings ++ messages }

/-- The workspace with one more context, which is not bound. -/
def withContext (w : Workspace) (source : Source) : Workspace :=
  { w with contexts := w.contexts.push ⟨source, none, none, [], none⟩ }

/-- The workspace with one more unit, which is not bound. -/
def withUnit (w : Workspace) (parsed : ParsedUnit) : Workspace :=
  { w with units := w.units.push ⟨parsed, none⟩ }

/-- The workspace in which a context and a unit are linked, and the context has learned this. -/
def linked (w : Workspace) (c : ContextId) (u : UnitId) (a : Attachment) : Workspace :=
  { w with
    contexts := w.contexts.modify c.index fun entry =>
      { entry with unit := some u, scope := some a.scope, issues := a.issues }
    units := w.units.modify u.index fun entry => { entry with context := some c } }

/-- The warning that the source of a name, read under a mode, has syntax issues. -/
def issueWarnings (name : String) (mode : Mode) (issues : List SyntaxIssue) : List String :=
  if issues.isEmpty then []
  else [name ++ " parsed as " ++ mode.name ++ " with " ++ toString issues.length ++
    " syntax issue(s)"]

@[simp] theorem context?_noting (w : Workspace) (messages : List String) (c : ContextId) :
    (w.noting messages).context? c = w.context? c := rfl

@[simp] theorem unit?_noting (w : Workspace) (messages : List String) (u : UnitId) :
    (w.noting messages).unit? u = w.unit? u := rfl

@[simp] theorem unit?_withContext (w : Workspace) (source : Source) (u : UnitId) :
    (w.withContext source).unit? u = w.unit? u := rfl

@[simp] theorem context?_withUnit (w : Workspace) (parsed : ParsedUnit) (c : ContextId) :
    (w.withUnit parsed).context? c = w.context? c := rfl

theorem context?_withContext (w : Workspace) (source : Source) (c : ContextId) :
    (w.withContext source).context? c =
      if c = ⟨w.contexts.size⟩ then some ⟨source, none, none, [], none⟩ else w.context? c := by
  obtain ⟨i⟩ := c
  simp only [context?, withContext, Array.getElem?_push, ContextId.mk.injEq]

theorem unit?_withUnit (w : Workspace) (parsed : ParsedUnit) (u : UnitId) :
    (w.withUnit parsed).unit? u =
      if u = ⟨w.units.size⟩ then some ⟨parsed, none⟩ else w.unit? u := by
  obtain ⟨i⟩ := u
  simp only [unit?, withUnit, Array.getElem?_push, UnitId.mk.injEq]

theorem context?_linked (w : Workspace) (c c' : ContextId) (u : UnitId) (a : Attachment) :
    (w.linked c u a).context? c' = if c' = c then (w.context? c).map fun entry =>
      { entry with unit := some u, scope := some a.scope, issues := a.issues }
      else w.context? c' := by
  simp only [context?, linked, Array.getElem?_modify]
  by_cases same : c' = c
  · subst same
    simp
  · have other : c.index ≠ c'.index := fun h => same (by cases c; cases c'; simp_all)
    simp [same, other]

theorem unit?_linked (w : Workspace) (c : ContextId) (u u' : UnitId) (a : Attachment) :
    (w.linked c u a).unit? u' = if u' = u then (w.unit? u).map fun entry =>
      { entry with context := some c } else w.unit? u' := by
  simp only [unit?, linked, Array.getElem?_modify]
  by_cases same : u' = u
  · subst same
    simp
  · have other : u.index ≠ u'.index := fun h => same (by cases u; cases u'; simp_all)
    simp [same, other]

theorem outcome_link (hc : w.context? c = some entry) (hu : w.unit? u = some unitEntry)
    (a : Attachment) : outcome (link c u a) w =
      (.ok ⟨⟩, (w.linked c u a).noting
        (issueWarnings entry.source.name unitEntry.parsed.mode a.issues)) := by
  rw [link, outcome_bind_of_ok (outcome_unit_of_some hu),
    outcome_bind_of_ok (outcome_context_of_some hc), outcome_bind_of_ok (outcome_modify _ w)]
  unfold issueWarnings
  cases a.issues.isEmpty
  · rfl
  · simp [noting, linked]

/-! ## Binding -/

/-- What an attempt to bind a context and a unit that are there comes to. -/
inductive Binds (w : Workspace) (c : ContextId) (u : UnitId) (entry : ContextEntry)
    (unitEntry : UnitEntry) : Except Fault Unit × Workspace → Prop
  | contextBound {other : UnitId} : entry.unit = some other →
      Binds w c u entry unitEntry
        (.error (.contextBound (w.displayContext c) (w.displayUnit other)), w)
  | malformed : entry.unit = none → unitEntry.parsed.isWellFormed = false →
      Binds w c u entry unitEntry
        (.error (.malformed entry.source.name unitEntry.parsed.mode), w)
  | unlocated {f : Fault} : entry.unit = none → unitEntry.parsed.isWellFormed = true →
      unitEntry.parsed.attachment = .error f → Binds w c u entry unitEntry (.error f, w)
  | unitBound {a : Attachment} {other : ContextId} : entry.unit = none →
      unitEntry.parsed.isWellFormed = true → unitEntry.parsed.attachment = .ok a →
      unitEntry.context = some other → other ≠ c →
      Binds w c u entry unitEntry
        (.error (.unitBound (w.displayUnit u) (w.displayContext other)), w)
  | bound {a : Attachment} : entry.unit = none → unitEntry.parsed.isWellFormed = true →
      unitEntry.parsed.attachment = .ok a →
      (∀ other, unitEntry.context = some other → other = c) →
      Binds w c u entry unitEntry (.ok ⟨⟩, (w.linked c u a).noting
        (issueWarnings entry.source.name unitEntry.parsed.mode a.issues))

theorem bind_cases (hc : w.context? c = some entry) (hu : w.unit? u = some unitEntry) :
    Binds w c u entry unitEntry (outcome (bind c u) w) := by
  rw [bind, outcome_bind_of_ok (outcome_context_of_some hc)]
  cases free : entry.unit with
  | some other => exact .contextBound free
  | none =>
    simp only [outcome_bind_of_ok (outcome_unit_of_some hu)]
    cases fits : unitEntry.parsed.isWellFormed with
    | false => exact .malformed free fits
    | true =>
      simp only [Bool.not_true, Bool.false_eq_true, if_false]
      cases learned : unitEntry.parsed.attachment with
      | error f => exact .unlocated free fits learned
      | ok a =>
        have links := outcome_link hc hu a
        rw [outcome_bind_of_ok (outcome_ofExcept _ w)]
        cases owner : unitEntry.context with
        | none =>
          dsimp only
          rw [links]
          exact .bound free fits learned (by simp [owner])
        | some other =>
          dsimp only
          by_cases own : other = c
          · rw [if_pos own, links]
            exact .bound free fits learned (by simp [owner, own])
          · rw [if_neg own]
            exact .unitBound free fits learned owner own

/-- Nothing is bound where the context or the unit is not there. -/
theorem outcome_bind_of_absent (h : w.context? c = none ∨ w.unit? u = none) :
    ∃ f, outcome (bind c u) w = (.error f, w) := by
  rw [bind]
  cases hc : w.context? c with
  | none => exact ⟨_, outcome_bind_of_error (outcome_context_of_none hc) _⟩
  | some entry =>
    have hu : w.unit? u = none := by simpa [hc] using h
    rw [outcome_bind_of_ok (outcome_context_of_some hc)]
    cases entry.unit with
    | some other => exact ⟨_, rfl⟩
    | none => exact ⟨_, outcome_bind_of_error (outcome_unit_of_none hu) _⟩

/-- An attempt to bind changes nothing, or it links a context that is not bound to the unit. -/
theorem state_bind (c : ContextId) (u : UnitId) (w : Workspace) :
    (outcome (bind c u) w).2 = w ∨ ∃ entry unitEntry a messages, w.context? c = some entry ∧
      w.unit? u = some unitEntry ∧ entry.unit = none ∧
        (outcome (bind c u) w).2 = (w.linked c u a).noting messages := by
  by_cases absent : w.context? c = none ∨ w.unit? u = none
  · obtain ⟨f, refused⟩ := outcome_bind_of_absent absent
    exact .inl (by rw [refused])
  · obtain ⟨context, unit⟩ := not_or.1 absent
    obtain ⟨entry, hc⟩ := Option.ne_none_iff_exists'.1 context
    obtain ⟨unitEntry, hu⟩ := Option.ne_none_iff_exists'.1 unit
    have cases := bind_cases hc hu
    generalize outcome (bind c u) w = result at cases ⊢
    cases cases with
    | contextBound => exact .inl rfl
    | malformed => exact .inl rfl
    | unlocated => exact .inl rfl
    | unitBound => exact .inl rfl
    | bound free => exact .inr ⟨entry, unitEntry, _, _, hc, hu, free, rfl⟩

/-- Binding a unit to a context changes nothing, or does what binding the context does. -/
theorem outcome_bindUnit_cases (u : UnitId) (c : ContextId) (w : Workspace) :
    (outcome (bindUnit u c) w).2 = w ∨ outcome (bindUnit u c) w = outcome (bind c u) w := by
  rw [bindUnit]
  cases hu : w.unit? u with
  | none => exact .inl (by rw [outcome_bind_of_error (outcome_unit_of_none hu)])
  | some unitEntry =>
    rw [outcome_bind_of_ok (outcome_unit_of_some hu)]
    cases unitEntry.context with
    | some other => exact .inl rfl
    | none => exact .inr rfl

/-- A unit that fits its mode is bound to a context if neither is bound yet. -/
theorem outcome_bind_of_free (hc : w.context? c = some entry) (hu : w.unit? u = some unitEntry)
    (free : entry.unit = none) (unowned : unitEntry.context = none)
    (fits : unitEntry.parsed.isWellFormed = true) {a : Attachment}
    (learned : unitEntry.parsed.attachment = .ok a) :
    outcome (bind c u) w = (.ok ⟨⟩, (w.linked c u a).noting
      (issueWarnings entry.source.name unitEntry.parsed.mode a.issues)) := by
  have cases := bind_cases hc hu
  generalize outcome (bind c u) w = result at cases ⊢
  cases cases with
  | contextBound taken => simp [free] at taken
  | malformed _ unfit => simp [fits] at unfit
  | unlocated _ _ failed => simp [learned] at failed
  | unitBound _ _ _ owned _ => simp [unowned] at owned
  | bound _ _ learned' _ =>
    rw [learned] at learned'
    cases learned'
    rfl

end Workspace

end JavaScope
