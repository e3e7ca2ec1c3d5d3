import JavaScope.Proofs.Workspace.Parsing

/-!
# Links are mutual and final

What a call makes of a workspace is one of two things: more entries that are not bound, or those and
one pair of entries that are bound to each other. A call that fails does the first only. From this it
follows, along every run of calls, that the links of contexts and units are mutual, and that what a
bound context has learned does not change.
-/

namespace JavaScope

namespace Workspace

/-! ## Calls -/

/-- A call that makes contexts or units, or binds them. -/
inductive Call where
  | createContext (source : Source)
  | parse (grammar : Grammar) (configuration : Configuration) (source : Source) (mode : Mode)
  | bind (c : ContextId) (u : UnitId)
  | bindUnit (u : UnitId) (c : ContextId)
  | parseContext (grammar : Grammar) (configuration : Configuration) (c : ContextId)
  | parseSource (grammar : Grammar) (configuration : Configuration) (source : Source)

/-- What a call does, without what it answers. -/
def Call.run : Call → WorkspaceM Unit
  | createContext source => do let _ ← Workspace.createContext source
  | parse grammar configuration source mode => do
    let _ ← Workspace.parse grammar configuration source mode
  | bind c u => Workspace.bind c u
  | bindUnit u c => Workspace.bindUnit u c
  | parseContext grammar configuration c => Workspace.parseContext grammar configuration c
  | parseSource grammar configuration source => do
    let _ ← Workspace.parseSource grammar configuration source

/-- The workspace after some calls, also where some of them fail. -/
def after (w : Workspace) (calls : List Call) : Workspace :=
  calls.foldl (fun w call => (outcome call.run w).2) w

/-! ## Links -/

/-- The unit that a context is bound to. -/
def unitFor (w : Workspace) (c : ContextId) : Option UnitId :=
  (w.context? c).bind (·.unit)

/-- The context that a unit is bound to. -/
def contextFor (w : Workspace) (u : UnitId) : Option ContextId :=
  (w.unit? u).bind (·.context)

/-- The links are mutual, and a bound context knows what its unit tells. -/
structure Sound (w : Workspace) : Prop where
  paired : ∀ c u, w.unitFor c = some u ↔ w.contextFor u = some c
  learned : ∀ c entry u, w.context? c = some entry → entry.unit = some u →
    ∃ unitEntry a, w.unit? u = some unitEntry ∧ unitEntry.parsed.isWellFormed = true ∧
      unitEntry.parsed.attachment = .ok a ∧ entry.scope = some a.scope ∧ entry.issues = a.issues

/-! ## More entries -/

/-- The second workspace has the entries of the first one, and besides only entries that are not
bound. -/
structure Extends (w w' : Workspace) : Prop where
  contexts : ∀ c entry, w.context? c = some entry → w'.context? c = some entry
  units : ∀ u entry, w.unit? u = some entry → w'.unit? u = some entry
  newContexts : ∀ c entry, w.context? c = none → w'.context? c = some entry → entry.unit = none
  newUnits : ∀ u entry, w.unit? u = none → w'.unit? u = some entry → entry.context = none

namespace Extends

variable {w v w' : Workspace}

protected theorem refl (w : Workspace) : w.Extends w where
  contexts _ _ h := h
  units _ _ h := h
  newContexts c entry absent there := by
    rw [absent] at there
    cases there
  newUnits u entry absent there := by
    rw [absent] at there
    cases there

protected theorem trans (h : w.Extends v) (h' : v.Extends w') : w.Extends w' where
  contexts c entry there := h'.contexts c entry (h.contexts c entry there)
  units u entry there := h'.units u entry (h.units u entry there)
  newContexts c entry absent there := by
    cases between : v.context? c with
    | none => exact h'.newContexts c entry between there
    | some entry' =>
      have same := h'.contexts c entry' between
      rw [there] at same
      cases same
      exact h.newContexts c entry absent between
  newUnits u entry absent there := by
    cases between : v.unit? u with
    | none => exact h'.newUnits u entry between there
    | some entry' =>
      have same := h'.units u entry' between
      rw [there] at same
      cases same
      exact h.newUnits u entry absent between

theorem noting (w : Workspace) (messages : List String) : w.Extends (w.noting messages) :=
  { Extends.refl w with }

theorem withContext (w : Workspace) (source : Source) : w.Extends (w.withContext source) where
  contexts c entry there := by
    have old : c ≠ ⟨w.contexts.size⟩ := by
      rintro rfl
      simp [context?] at there
    rw [context?_withContext, if_neg old, there]
  units _ _ there := there
  newContexts c entry absent there := by
    rw [context?_withContext] at there
    split at there
    · cases there
      rfl
    · rw [absent] at there
      cases there
  newUnits u entry absent there := (Extends.refl w).newUnits u entry absent there

theorem withUnit (w : Workspace) (parsed : ParsedUnit) : w.Extends (w.withUnit parsed) where
  contexts _ _ there := there
  units u entry there := by
    have old : u ≠ ⟨w.units.size⟩ := by
      rintro rfl
      simp [unit?] at there
    rw [unit?_withUnit, if_neg old, there]
  newContexts c entry absent there := (Extends.refl w).newContexts c entry absent there
  newUnits u entry absent there := by
    rw [unit?_withUnit] at there
    split at there
    · cases there
      rfl
    · rw [absent] at there
      cases there

theorem unitFor_eq (h : w.Extends w') (c : ContextId) : w'.unitFor c = w.unitFor c := by
  unfold unitFor
  cases old : w.context? c with
  | some entry => rw [h.contexts c entry old]
  | none =>
    cases new : w'.context? c with
    | none => rfl
    | some entry => exact h.newContexts c entry old new

theorem contextFor_eq (h : w.Extends w') (u : UnitId) : w'.contextFor u = w.contextFor u := by
  unfold contextFor
  cases old : w.unit? u with
  | some entry => rw [h.units u entry old]
  | none =>
    cases new : w'.unit? u with
    | none => rfl
    | some entry => exact h.newUnits u entry old new

end Extends

theorem Sound.extends {w w' : Workspace} (sound : w.Sound) (h : w.Extends w') : w'.Sound where
  paired c u := by rw [h.unitFor_eq, h.contextFor_eq, sound.paired]
  learned c entry u there bound := by
    cases old : w.context? c with
    | none =>
      rw [h.newContexts c entry old there] at bound
      cases bound
    | some entry' =>
      have same := h.contexts c entry' old
      rw [there] at same
      cases same
      obtain ⟨unitEntry, a, hu, rest⟩ := sound.learned c entry u old bound
      exact ⟨unitEntry, a, h.units u unitEntry hu, rest⟩

/-! ## One more pair -/

section Linked

variable {w : Workspace} {c : ContextId} {u : UnitId} {entry : ContextEntry}
  {unitEntry : UnitEntry} (a : Attachment)

theorem unitFor_linked (hc : w.context? c = some entry) (c' : ContextId) :
    (w.linked c u a).unitFor c' = if c' = c then some u else w.unitFor c' := by
  rw [unitFor, context?_linked, hc]
  split
  · rfl
  · rfl

theorem contextFor_linked (hu : w.unit? u = some unitEntry) (u' : UnitId) :
    (w.linked c u a).contextFor u' = if u' = u then some c else w.contextFor u' := by
  rw [contextFor, unit?_linked, hu]
  split
  · rfl
  · rfl

variable {a}

/-- A context that is not bound can be linked to a unit that is bound to no other one. -/
theorem Sound.linked (sound : w.Sound) (hc : w.context? c = some entry)
    (hu : w.unit? u = some unitEntry) (free : entry.unit = none)
    (own : ∀ other, unitEntry.context = some other → other = c)
    (fits : unitEntry.parsed.isWellFormed = true) (learned : unitEntry.parsed.attachment = .ok a) :
    (w.linked c u a).Sound := by
  have unbound : ∀ u', w.contextFor u' ≠ some c := by
    intro u' owner
    have there := (sound.paired c u').2 owner
    rw [unitFor, hc] at there
    simp [free] at there
  have unowned : ∀ c', w.unitFor c' ≠ some u := by
    intro c' there
    have owner := (sound.paired c' u).1 there
    have same : c' = c := by
      apply own
      rw [contextFor, hu] at owner
      exact owner
    exact unbound u (same ▸ owner)
  constructor
  · intro c' u'
    rw [unitFor_linked a hc, contextFor_linked a hu]
    by_cases hc' : c' = c <;> by_cases hu' : u' = u
    · simp [hc', hu']
    · subst hc'
      simp [hu', Ne.symm hu', unbound u']
    · subst hu'
      simp [hc', Ne.symm hc', unowned c']
    · simp [hc', hu', sound.paired]
  · intro c' entry' u' there bound
    rw [context?_linked] at there
    by_cases hc' : c' = c
    · subst hc'
      rw [if_pos rfl, hc] at there
      cases there
      cases bound
      have there : (w.linked c' u a).unit? u = some ⟨unitEntry.parsed, some c'⟩ := by
        rw [unit?_linked, if_pos rfl, hu]
        rfl
      exact ⟨_, a, there, fits, learned, rfl, rfl⟩
    · rw [if_neg hc'] at there
      obtain ⟨unitEntry', a', hu', rest⟩ := sound.learned c' entry' u' there bound
      have other : u' ≠ u := by
        rintro rfl
        apply unowned c'
        rw [unitFor, there]
        exact bound
      exact ⟨unitEntry', a', by rw [unit?_linked, if_neg other, hu'], rest⟩

end Linked

/-! ## What a call does -/

/-- What a call that answers makes of a workspace. -/
inductive Step (w : Workspace) : Workspace → Prop
  | extends {w' : Workspace} : w.Extends w' → Step w w'
  | binds {v : Workspace} {c : ContextId} {u : UnitId} {entry : ContextEntry}
      {unitEntry : UnitEntry} {a : Attachment} (messages : List String) : w.Extends v →
      v.context? c = some entry → v.unit? u = some unitEntry → entry.unit = none →
      (∀ other, unitEntry.context = some other → other = c) →
      unitEntry.parsed.isWellFormed = true → unitEntry.parsed.attachment = .ok a →
      Step w ((v.linked c u a).noting messages)

/-- The workspace after a call, by its answer. -/
def Results {α : Type} (w : Workspace) : Except Fault α × Workspace → Prop
  | (.ok _, w') => w.Step w'
  | (.error _, w') => w.Extends w'

theorem Results.after {α : Type} {w v : Workspace} {result : Except Fault α × Workspace}
    (h : w.Extends v) (results : v.Results result) : w.Results result := by
  rcases result with ⟨f | x, w'⟩
  · exact h.trans results
  · cases results with
    | «extends» grown => exact .extends (h.trans grown)
    | binds messages grown hc hu free own fits learned =>
      exact .binds messages (h.trans grown) hc hu free own fits learned

theorem bind_results (c : ContextId) (u : UnitId) (w : Workspace) :
    w.Results (outcome (Workspace.bind c u) w) := by
  by_cases absent : w.context? c = none ∨ w.unit? u = none
  · obtain ⟨f, refused⟩ := outcome_bind_of_absent absent
    rw [refused]
    exact .refl w
  · obtain ⟨context, unit⟩ := not_or.1 absent
    obtain ⟨entry, hc⟩ := Option.ne_none_iff_exists'.1 context
    obtain ⟨unitEntry, hu⟩ := Option.ne_none_iff_exists'.1 unit
    have cases := bind_cases hc hu
    generalize outcome (Workspace.bind c u) w = result at cases ⊢
    cases cases with
    | contextBound => exact .refl w
    | malformed => exact .refl w
    | unlocated => exact .refl w
    | unitBound => exact .refl w
    | bound free fits learned own => exact .binds _ (.refl w) hc hu free own fits learned

theorem bindUnit_results (u : UnitId) (c : ContextId) (w : Workspace) :
    w.Results (outcome (Workspace.bindUnit u c) w) := by
  rw [Workspace.bindUnit]
  cases hu : w.unit? u with
  | none =>
    rw [outcome_bind_of_error (outcome_unit_of_none hu)]
    exact .refl w
  | some unitEntry =>
    rw [outcome_bind_of_ok (outcome_unit_of_some hu)]
    cases unitEntry.context with
    | some other => exact .refl w
    | none => exact bind_results c u w

theorem parseContext_results (grammar : Grammar) (configuration : Configuration) (c : ContextId)
    (w : Workspace) : w.Results (outcome (Workspace.parseContext grammar configuration c) w) := by
  rcases outcome_parseContext_cases grammar configuration c w with
    ⟨f, refused⟩ | ⟨entry, messages, mode, -, bound⟩
  · rw [refused]
    exact .refl w
  · rw [bound]
    -- the new unit is there before the attempt to bind it
    exact Results.after ((Extends.noting w _).trans (.withUnit _ _)) (bind_results _ _ _)

theorem Call.results (call : Call) (w : Workspace) : w.Results (outcome call.run w) := by
  cases call with
  | createContext source => exact .extends (.withContext w source)
  | parse grammar configuration source mode =>
    cases parsed : ParsedUnit.parse grammar configuration source mode with
    | error f =>
      have run : outcome (Call.run (.parse grammar configuration source mode)) w = (.error f, w) := by
        rw [Call.run, Workspace.parse, parsed]
        rfl
      rw [run]
      exact .refl w
    | ok unit =>
      have run : outcome (Call.run (.parse grammar configuration source mode)) w =
          (.ok ⟨⟩, w.withUnit unit) := by
        rw [Call.run, Workspace.parse, parsed]
        rfl
      rw [run]
      exact .extends (.withUnit w unit)
  | bind c u => exact bind_results c u w
  | bindUnit u c => exact bindUnit_results u c w
  | parseContext grammar configuration c => exact parseContext_results grammar configuration c w
  | parseSource grammar configuration source =>
    have results := Results.after (.withContext w source)
      (parseContext_results grammar configuration ⟨w.contexts.size⟩ (w.withContext source))
    rw [Call.run, outcome_bind, outcome_parseSource]
    generalize outcome (Workspace.parseContext grammar configuration ⟨w.contexts.size⟩)
      (w.withContext source) = result at results ⊢
    rcases result with ⟨f | ⟨⟩, w'⟩
    · exact results
    · exact results

/-! ## Runs of calls -/

theorem Step.sound {w w' : Workspace} (step : w.Step w') (sound : w.Sound) : w'.Sound := by
  cases step with
  | «extends» grown => exact sound.extends grown
  | binds messages grown hc hu free own fits learned =>
    exact ((sound.extends grown).linked hc hu free own fits learned).extends (.noting _ messages)

theorem Call.sound (call : Call) : Keeps Sound call.run := by
  intro w sound
  have results := call.results w
  generalize outcome call.run w = result at results ⊢
  rcases result with ⟨f | ⟨⟩, w'⟩
  · exact sound.extends results
  · exact Step.sound results sound

theorem after_sound {w : Workspace} (sound : w.Sound) (calls : List Call) : (w.after calls).Sound := by
  induction calls generalizing w with
  | nil => exact sound
  | cons call calls ih => exact ih (call.sound w sound)

theorem empty_sound : empty.Sound where
  paired c u := by simp [unitFor, contextFor, empty, context?, unit?]
  learned c entry u there := by simp [empty, context?] at there

/-- What is known of a bound context does not change any more. -/
theorem Step.context?_eq {w w' : Workspace} (step : w.Step w') {c : ContextId}
    {entry : ContextEntry} (there : w.context? c = some entry) (bound : entry.unit ≠ none) :
    w'.context? c = some entry := by
  cases step with
  | «extends» grown => exact grown.contexts c entry there
  | @binds v c' u entry' unitEntry a messages grown hc hu free own fits learned =>
    have kept := grown.contexts c entry there
    have other : c ≠ c' := by
      rintro rfl
      rw [hc] at kept
      cases kept
      exact bound free
    rw [context?_noting, context?_linked, if_neg other, kept]

theorem Call.context?_eq (call : Call) {w : Workspace} {c : ContextId} {entry : ContextEntry}
    (there : w.context? c = some entry) (bound : entry.unit ≠ none) :
    (outcome call.run w).2.context? c = some entry := by
  have results := call.results w
  generalize outcome call.run w = result at results ⊢
  rcases result with ⟨f | ⟨⟩, w'⟩
  · exact results.contexts c entry there
  · exact Step.context?_eq results there bound

theorem after_context?_eq {w : Workspace} {c : ContextId} {entry : ContextEntry}
    (there : w.context? c = some entry) (bound : entry.unit ≠ none) (calls : List Call) :
    (w.after calls).context? c = some entry := by
  induction calls generalizing w with
  | nil => exact there
  | cons call calls ih => exact ih (call.context?_eq there bound)

/-! ## Refusals -/

/-- Neither way of binding a context and a unit succeeds or changes anything. -/
def Refuses (w : Workspace) (c : ContextId) (u : UnitId) (family : String) : Prop :=
  ∀ call ∈ [Call.bind c u, .bindUnit u c],
    ∃ f : Fault, f.family = family ∧ outcome call.run w = (.error f, w)

section Refusals

variable {w : Workspace} {c : ContextId} {u : UnitId} {entry : ContextEntry}
  {unitEntry : UnitEntry}

theorem outcome_bindUnit_of_unowned (hu : w.unit? u = some unitEntry)
    (unowned : unitEntry.context = none) :
    outcome (Workspace.bindUnit u c) w = outcome (Workspace.bind c u) w := by
  rw [Workspace.bindUnit, outcome_bind_of_ok (outcome_unit_of_some hu), unowned]

theorem outcome_bindUnit_of_owned (hu : w.unit? u = some unitEntry) {other : ContextId}
    (owned : unitEntry.context = some other) : outcome (Workspace.bindUnit u c) w =
      (.error (.unitBound (w.displayUnit u) (w.displayContext other)), w) := by
  rw [Workspace.bindUnit, outcome_bind_of_ok (outcome_unit_of_some hu), owned]
  rfl

/-- In a sound workspace, a unit that is bound elsewhere fits its mode and tells what a context
learns from it. -/
theorem Sound.fits (sound : w.Sound) (hu : w.unit? u = some unitEntry) {other : ContextId}
    (owned : unitEntry.context = some other) :
    unitEntry.parsed.isWellFormed = true ∧ (∃ a, unitEntry.parsed.attachment = .ok a) ∧
      w.unitFor other = some u := by
  have there : w.unitFor other = some u := by
    rw [sound.paired, contextFor, hu]
    exact owned
  obtain ⟨entry', hc', bound⟩ := Option.bind_eq_some_iff.1 there
  obtain ⟨unitEntry', a, hu', fits, learned, -⟩ := sound.learned other entry' u hc' bound
  rw [hu] at hu'
  cases hu'
  exact ⟨fits, ⟨a, learned⟩, there⟩

theorem Sound.bind_refuses (sound : w.Sound) (hc : w.context? c = some entry)
    (hu : w.unit? u = some unitEntry) (taken : entry.unit ≠ none ∨ unitEntry.context ≠ none) :
    ∃ f : Fault, f.family = "AlreadyBoundError" ∧
      outcome (Workspace.bind c u) w = (.error f, w) := by
  have cases := bind_cases hc hu
  generalize outcome (Workspace.bind c u) w = result at cases ⊢
  have owned : entry.unit = none → ∃ other, unitEntry.context = some other := by
    intro free
    exact Option.ne_none_iff_exists'.1 (taken.resolve_left (not_not_intro free))
  cases cases with
  | contextBound => exact ⟨_, rfl, rfl⟩
  | malformed free unfit =>
    obtain ⟨other, owner⟩ := owned free
    rw [(sound.fits hu owner).1] at unfit
    cases unfit
  | unlocated free _ failed =>
    obtain ⟨other, owner⟩ := owned free
    obtain ⟨a, learned⟩ := (sound.fits hu owner).2.1
    rw [learned] at failed
    cases failed
  | unitBound => exact ⟨_, rfl, rfl⟩
  | bound free _ _ own =>
    obtain ⟨other, owner⟩ := owned free
    have there := (sound.fits hu owner).2.2
    rw [own other owner, unitFor, hc] at there
    simp [free] at there

theorem Sound.refuses_bound (sound : w.Sound) (hc : w.context? c = some entry)
    (hu : w.unit? u = some unitEntry) (taken : entry.unit ≠ none ∨ unitEntry.context ≠ none) :
    w.Refuses c u "AlreadyBoundError" := by
  have refused := sound.bind_refuses hc hu taken
  intro call member
  rcases List.mem_pair.1 member with rfl | rfl
  · exact refused
  · show ∃ f : Fault, _ ∧ outcome (Workspace.bindUnit u c) w = _
    cases owner : unitEntry.context with
    | none =>
      rw [outcome_bindUnit_of_unowned hu owner]
      exact refused
    | some other => exact ⟨_, rfl, outcome_bindUnit_of_owned hu owner⟩

theorem refuses_malformed (hc : w.context? c = some entry) (hu : w.unit? u = some unitEntry)
    (free : entry.unit = none) (unowned : unitEntry.context = none)
    (unfit : unitEntry.parsed.isWellFormed = false) : w.Refuses c u "MalformedUnitError" := by
  have refused : ∃ f : Fault, f.family = "MalformedUnitError" ∧
      outcome (Workspace.bind c u) w = (.error f, w) := by
    have cases := bind_cases hc hu
    generalize outcome (Workspace.bind c u) w = result at cases ⊢
    cases cases with
    | contextBound taken => simp [free] at taken
    | malformed => exact ⟨_, rfl, rfl⟩
    | unlocated _ fits => simp [unfit] at fits
    | unitBound _ fits => simp [unfit] at fits
    | bound _ fits => simp [unfit] at fits
  intro call member
  rcases List.mem_pair.1 member with rfl | rfl
  · exact refused
  · show ∃ f : Fault, _ ∧ outcome (Workspace.bindUnit u c) w = _
    rw [outcome_bindUnit_of_unowned hu unowned]
    exact refused

end Refusals

/-- After every run of calls that starts without contexts and units, the links are mutual, so no two
contexts share a unit, and nothing of a bound context changes any more. A call that fails leaves all
contexts and units as they were; what it may have made on the way is not bound. Attempts to bind are
refused where one side is bound already, and otherwise where the unit does not fit its mode. -/
theorem run_binds_once (calls : List Call) :
    let w := empty.after calls
    (∀ c u, w.unitFor c = some u ↔ w.contextFor u = some c) ∧
      (∀ c c' u, w.unitFor c = some u → w.unitFor c' = some u → c = c') ∧
      (∀ c entry, w.context? c = some entry → entry.unit ≠ none →
        ∀ more, (w.after more).context? c = some entry) ∧
      (∀ call f w', outcome (Call.run call) w = (.error f, w') → w.Extends w') ∧
      ∀ c u entry unitEntry, w.context? c = some entry → w.unit? u = some unitEntry →
        (entry.unit ≠ none ∨ unitEntry.context ≠ none → w.Refuses c u "AlreadyBoundError") ∧
        (entry.unit = none → unitEntry.context = none → unitEntry.parsed.isWellFormed = false →
          w.Refuses c u "MalformedUnitError") := by
  intro w
  have sound : w.Sound := after_sound empty_sound calls
  refine ⟨sound.paired, ?_, ?_, ?_, ?_⟩
  · intro c c' u first second
    rw [sound.paired] at first second
    exact Option.some.inj (first.symm.trans second)
  · intro c entry there bound more
    exact after_context?_eq there bound more
  · intro call f w' failed
    have results := call.results w
    rw [failed] at results
    exact results
  · intro c u entry unitEntry hc hu
    exact ⟨sound.refuses_bound hc hu, refuses_malformed hc hu⟩

end Workspace

end JavaScope
