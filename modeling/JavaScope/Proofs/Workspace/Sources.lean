import JavaScope.Proofs.Unit.Text
import JavaScope.Proofs.Workspace.Links

/-!
# Answers about the own source

A unit locates its nodes in the source that it was parsed from, and a context the units that it
answers in the source that it was made for. So a bound context answers about its own source exactly
if its unit was parsed from that source. Parsing always pairs the two; only a call that binds a given
unit can pair a context with a unit of another source.
-/

namespace JavaScope

/-- Where the unit was parsed from the source of the context, every query for units is answered, and
in that source. -/
theorem Context.locate_isOk_of_own {c : Context} (own : c.unit.source = c.source)
    (ordered : c.unit.tree.IsOrdered) (query : UnitQuery) :
    ∃ found, c.locate query = .ok found ∧ ∀ l ∈ found, l.source = some c.source := by
  have each : ∀ n ∈ c.unit.tree.root.preorder,
      ∃ l, c.locateUnitNode n = .ok l ∧ l.source = some c.source := by
    intro n hn
    obtain ⟨l, located, -, source, -⟩ := locateUnitNode_isOk own (ordered n hn)
    exact ⟨l, located, source⟩
  cases query with
  | named kind name scope =>
    have declared : ∀ n ∈ c.declarations kind name, n ∈ c.unit.tree.root.preorder := fun n hn =>
      (isReal_of_mem_declarations hn).1
    obtain ⟨found, located, origin⟩ :=
      mapM_isOk fun n hn => (each n (declared n hn)).imp fun _ h => h.1
    refine ⟨found.filter fun l => scope.all fun scope => scope.covers l.toLocation, ?_, ?_⟩
    · rw [locate, located]
      rfl
    · intro l hl
      obtain ⟨n, hn, there⟩ := origin l (List.mem_of_mem_filter hl)
      obtain ⟨l', there', source⟩ := each n (declared n hn)
      cases there.symm.trans there'
      exact source
  | selected scope =>
    simp only [locate]
    cases selects : c.selectedNode scope.start.offset scope.stop.offset with
    | none => exact ⟨[], rfl, by simp⟩
    | some n =>
      obtain ⟨l, there, source⟩ := each n (isReal_of_selectedNode selects).1
      refine ⟨[l], ?_, ?_⟩
      · simp only [there]
        rfl
      · intro l' hl'
        cases List.mem_singleton.1 hl'
        exact source

namespace Workspace

/-! ## What calls leave -/

theorem Call.state_parse (grammar : Grammar) (configuration : Configuration) (source : Source)
    (mode : Mode) (w : Workspace) :
    (outcome (Call.run (.parse grammar configuration source mode)) w).2 = w ∨
      (outcome (Call.run (.parse grammar configuration source mode)) w).2 =
        w.withUnit (.under grammar configuration source mode) := by
  cases parsed : ParsedUnit.parse grammar configuration source mode with
  | error f =>
    rw [run, Workspace.parse, parsed]
    exact .inl rfl
  | ok unit =>
    rw [run, Workspace.parse, parsed, ParsedUnit.eq_under_of_parse parsed]
    exact .inr rfl

theorem Call.state_parseSource (grammar : Grammar) (configuration : Configuration)
    (source : Source) (w : Workspace) :
    (outcome (Call.run (.parseSource grammar configuration source)) w).2 =
      (outcome (Workspace.parseContext grammar configuration ⟨w.contexts.size⟩)
        (w.withContext source)).2 := by
  rw [run, outcome_bind, outcome_parseSource]
  rcases outcome (Workspace.parseContext grammar configuration ⟨w.contexts.size⟩)
    (w.withContext source) with ⟨f | ⟨⟩, w'⟩
  · rfl
  · rfl

/-! ## Pairs of sources -/

/-- The sources of a bound context: the one that it was made for, and the one that its unit was
parsed from. -/
def sources? (w : Workspace) (c : ContextId) : Option (Source × Source) :=
  (w.context? c).bind fun entry =>
    (entry.unit.bind w.unit?).map fun unitEntry => (entry.source, unitEntry.parsed.source)

section Pairs

variable {w w' : Workspace} {c : ContextId} {u : UnitId} {entry : ContextEntry}
  {unitEntry : UnitEntry}

theorem sources?_of_unbound (hc : w.context? c = some entry) (free : entry.unit = none) :
    w.sources? c = none := by
  rw [sources?, hc, Option.bind_some, free]
  rfl

theorem sources?_of_bound (hc : w.context? c = some entry) (bound : entry.unit = some u)
    (hu : w.unit? u = some unitEntry) :
    w.sources? c = some (entry.source, unitEntry.parsed.source) := by
  rw [sources?, hc, Option.bind_some, bound, Option.bind_some, hu]
  rfl

/-- In a sound workspace a bound context has its unit, so new entries change no pair. -/
theorem Extends.sources?_eq (h : w.Extends w') (sound : w.Sound) (c : ContextId) :
    w'.sources? c = w.sources? c := by
  cases old : w.context? c with
  | none =>
    rw [sources?, sources?, old]
    cases new : w'.context? c with
    | none => rfl
    | some entry => rw [Option.bind_some, h.newContexts c entry old new]; rfl
  | some entry =>
    have kept := h.contexts c entry old
    cases bound : entry.unit with
    | none => rw [sources?_of_unbound kept bound, sources?_of_unbound old bound]
    | some u =>
      obtain ⟨unitEntry, -, hu, -⟩ := sound.learned c entry u old bound
      rw [sources?_of_bound kept bound (h.units u unitEntry hu), sources?_of_bound old bound hu]

theorem sources?_linked (hc : w.context? c = some entry) (hu : w.unit? u = some unitEntry)
    (a : Attachment) (c' : ContextId) : (w.linked c u a).sources? c' =
      if c' = c then some (entry.source, unitEntry.parsed.source) else w.sources? c' := by
  rw [sources?, context?_linked]
  split
  · simp [hc, unit?_linked, hu]
  · rw [sources?]
    congr 1
    funext entry'
    cases entry'.unit with
    | none => rfl
    | some u' =>
      -- the unit that was linked is the one it was, apart from its link
      rw [Option.bind_some, Option.bind_some, unit?_linked]
      split
      · next same => simp [same, hu]
      · rfl

/-- The call binds a given unit to the context. -/
def Call.Binds (call : Call) (c : ContextId) : Prop :=
  ∃ u, call ∈ [Call.bind c u, .bindUnit u c]

/-- Of the pair of a context, all that a call may change is that it comes to be, with one source
twice unless the call binds a given unit. -/
def KeepsPair (w : Workspace) (c : ContextId) (given : Prop) (w' : Workspace) : Prop :=
  w'.sources? c = w.sources? c ∨
    w.sources? c = none ∧ ∃ own parsed, w'.sources? c = some (own, parsed) ∧ (given ∨ parsed = own)

theorem keepsPair_bind (c' : ContextId) (u : UnitId) {given : Prop} (c : ContextId)
    (source : ∀ entry unitEntry, c = c' → w.context? c = some entry → w.unit? u = some unitEntry →
      given ∨ unitEntry.parsed.source = entry.source) :
    w.KeepsPair c given (outcome (bind c' u) w).2 := by
  rcases state_bind c' u w with same | ⟨entry, unitEntry, a, messages, hc, hu, free, linked⟩
  · rw [same]
    exact .inl rfl
  · have pairs := sources?_linked hc hu a c
    rw [linked]
    by_cases same : c = c'
    · subst same
      rw [if_pos rfl] at pairs
      exact .inr ⟨sources?_of_unbound hc free, _, _, pairs, source entry unitEntry rfl hc hu⟩
    · rw [if_neg same] at pairs
      exact .inl pairs

theorem keepsPair_parseContext (sound : w.Sound) (grammar : Grammar)
    (configuration : Configuration) (c' c : ContextId) (given : Prop) :
    w.KeepsPair c given (outcome (parseContext grammar configuration c') w).2 := by
  rcases outcome_parseContext_cases grammar configuration c' w with
    ⟨f, refused⟩ | ⟨entry, messages, mode, hc, bound⟩
  · rw [refused]
    exact .inl rfl
  · have grown : w.Extends
        ((w.noting messages).withUnit (.under grammar configuration entry.source mode)) :=
      (Extends.noting w _).trans (.withUnit _ _)
    have there : ((w.noting messages).withUnit
        (.under grammar configuration entry.source mode)).unit? ⟨w.units.size⟩ =
          some ⟨.under grammar configuration entry.source mode, none⟩ := by
      rw [unit?_withUnit]
      exact if_pos rfl
    rw [bound, KeepsPair, ← grown.sources?_eq sound c]
    apply keepsPair_bind c' ⟨w.units.size⟩ c
    rintro entry' unitEntry rfl hc' hu
    cases (grown.contexts c entry hc).symm.trans hc'
    cases there.symm.trans hu
    exact .inr rfl

theorem Call.keepsPair (call : Call) (sound : w.Sound) (c : ContextId) :
    w.KeepsPair c (call.Binds c) (outcome call.run w).2 := by
  cases call with
  | createContext source => exact .inl ((Extends.withContext w source).sources?_eq sound c)
  | parse grammar configuration source mode =>
    rcases Call.state_parse grammar configuration source mode w with same | grown
    · rw [same]
      exact .inl rfl
    · rw [grown]
      exact .inl ((Extends.withUnit w _).sources?_eq sound c)
  | bind c' u =>
    apply keepsPair_bind c' u c
    rintro _ _ rfl - -
    exact .inl ⟨u, List.mem_cons_self⟩
  | bindUnit u c' =>
    rcases outcome_bindUnit_cases u c' w with same | binds
    · rw [Call.run, same]
      exact .inl rfl
    · rw [Call.run, binds]
      apply keepsPair_bind c' u c
      rintro _ _ rfl - -
      exact .inl ⟨u, List.mem_cons_of_mem _ List.mem_cons_self⟩
  | parseContext grammar configuration c' =>
    exact keepsPair_parseContext sound grammar configuration c' c _
  | parseSource grammar configuration source =>
    have grown := Extends.withContext w source
    rw [Call.state_parseSource, KeepsPair, ← grown.sources?_eq sound c]
    exact keepsPair_parseContext (sound.extends grown) grammar configuration _ c _

/-- Along a run, a pair of different sources comes to be by a call that binds a given unit. -/
theorem exists_binds_of_foreign {own parsed : Source} (foreign : parsed ≠ own) (calls : List Call)
    (sound : w.Sound) (before : w.sources? c ≠ some (own, parsed))
    (after : (w.after calls).sources? c = some (own, parsed)) :
    ∃ earlier call later, calls = earlier ++ call :: later ∧ call.Binds c ∧
      (w.after earlier).sources? c = none ∧
        (outcome call.run (w.after earlier)).2.sources? c = some (own, parsed) := by
  induction calls generalizing w with
  | nil => exact absurd after before
  | cons call calls ih =>
    by_cases now : (outcome call.run w).2.sources? c = some (own, parsed)
    · rcases call.keepsPair sound c with kept | ⟨unbound, own', parsed', pair, binds⟩
      · exact absurd (kept.symm.trans now) before
      · cases pair.symm.trans now
        exact ⟨[], call, calls, rfl, binds.resolve_right foreign, unbound, now⟩
    · obtain ⟨earlier, call', later, rfl, binds, unbound, paired⟩ :=
        ih (call.sound w sound) now after
      exact ⟨call :: earlier, call', later, rfl, binds, unbound, paired⟩

end Pairs

/-! ## Ordered trees -/

/-- No tree that the call may parse has a node that ends before it starts. -/
def Call.HasOrderedTrees : Call → Prop
  | parse grammar .. | parseContext grammar .. | parseSource grammar .. =>
    ∀ text, (grammar text).IsOrdered
  | _ => True

/-- No tree of a unit has a node that ends before it starts. -/
def HasOrderedTrees (w : Workspace) : Prop :=
  ∀ u unitEntry, w.unit? u = some unitEntry → unitEntry.parsed.tree.IsOrdered

namespace HasOrderedTrees

variable {w : Workspace} (trees : w.HasOrderedTrees)
include trees

theorem linked (c : ContextId) (u : UnitId) (a : Attachment) :
    (w.linked c u a).HasOrderedTrees := by
  intro u' unitEntry hu'
  rw [unit?_linked] at hu'
  split at hu'
  · obtain ⟨unitEntry', hu, rfl⟩ := Option.map_eq_some_iff.1 hu'
    exact trees u unitEntry' hu
  · exact trees u' unitEntry hu'

theorem withUnit {parsed : ParsedUnit} (ordered : parsed.tree.IsOrdered) :
    (w.withUnit parsed).HasOrderedTrees := by
  intro u unitEntry hu
  rw [unit?_withUnit] at hu
  split at hu
  · cases hu
    exact ordered
  · exact trees u unitEntry hu

theorem bind (c : ContextId) (u : UnitId) : (outcome (Workspace.bind c u) w).2.HasOrderedTrees := by
  rcases state_bind c u w with same | ⟨entry, unitEntry, a, messages, -, -, -, linked⟩
  · rw [same]
    exact trees
  · rw [linked]
    exact trees.linked c u a

theorem parseContext {grammar : Grammar} (ordered : ∀ text, (grammar text).IsOrdered)
    (configuration : Configuration) (c : ContextId) :
    (outcome (Workspace.parseContext grammar configuration c) w).2.HasOrderedTrees := by
  rcases outcome_parseContext_cases grammar configuration c w with
    ⟨f, refused⟩ | ⟨entry, messages, mode, -, bound⟩
  · rw [refused]
    exact trees
  · rw [bound]
    have noted : (w.noting messages).HasOrderedTrees := trees
    exact (noted.withUnit (ordered _)).bind c _

end HasOrderedTrees

theorem Call.keeps_trees {call : Call} (ordered : call.HasOrderedTrees) :
    Keeps Workspace.HasOrderedTrees call.run := by
  intro w trees
  cases call with
  | createContext source => exact trees
  | parse grammar configuration source mode =>
    rcases Call.state_parse grammar configuration source mode w with same | grown
    · rw [same]
      exact trees
    · rw [grown]
      exact trees.withUnit (ordered _)
  | bind c u => exact trees.bind c u
  | bindUnit u c =>
    rcases outcome_bindUnit_cases u c w with same | binds
    · rw [Call.run, same]
      exact trees
    · rw [Call.run, binds]
      exact trees.bind c u
  | parseContext grammar configuration c => exact trees.parseContext ordered configuration c
  | parseSource grammar configuration source =>
    rw [Call.state_parseSource]
    have made : (w.withContext source).HasOrderedTrees := trees
    exact made.parseContext ordered configuration _

theorem after_hasOrderedTrees {w : Workspace} (trees : w.HasOrderedTrees) {calls : List Call}
    (ordered : ∀ call ∈ calls, call.HasOrderedTrees) : (w.after calls).HasOrderedTrees := by
  induction calls generalizing w with
  | nil => exact trees
  | cons call calls ih =>
    have one := Call.keeps_trees (ordered call List.mem_cons_self) w trees
    exact ih one fun other member => ordered other (List.mem_cons_of_mem call member)

/-! ## Answers -/

/-- The scope, the syntax issues and the nodes of a bound context are located, in this source. -/
structure LocatesIn (w : Workspace) (c : ContextId) (source : Source) : Prop where
  scope : ∃ l, outcome (scopeOf c) w = (.ok l, w) ∧ l.source = some source
  issues : ∃ entry, w.context? c = some entry ∧
    ∀ issue ∈ entry.issues, issue.location.source = some source
  nodes : ∃ context, outcome (boundContext c) w = (.ok context, w) ∧
    ∀ n ∈ context.unit.tree.root.preorder,
      ∃ l, context.unit.locate n = .ok l ∧ l.source = some source

/-- Whatever a bound context is asked, it answers, with locations in this source. -/
structure AnswersAbout (w : Workspace) (c : ContextId) (source : Source) : Prop
    extends w.LocatesIn c source where
  units : ∃ context, outcome (boundContext c) w = (.ok context, w) ∧
    ∀ query, ∃ found, context.locate query = .ok found ∧ ∀ l ∈ found, l.source = some source

section Answers

variable {w : Workspace} {c : ContextId} {entry : ContextEntry} {u : UnitId}
  {unitEntry : UnitEntry}

theorem outcome_unitOf (hc : w.context? c = some entry) (bound : entry.unit = some u) :
    outcome (unitOf c) w = (.ok u, w) := by
  rw [unitOf, outcome_bind_of_ok (outcome_context_of_some hc), bound]
  rfl

theorem outcome_boundContext (hc : w.context? c = some entry) (bound : entry.unit = some u)
    (hu : w.unit? u = some unitEntry) (root : unitEntry.parsed.root?.isSome) :
    ∃ context, outcome (boundContext c) w = (.ok context, w) ∧ context.source = entry.source ∧
      context.unit = unitEntry.parsed := by
  rw [boundContext, outcome_bind_of_ok (outcome_context_of_some hc),
    outcome_bind_of_ok (outcome_unitOf hc bound), outcome_bind_of_ok (outcome_unit_of_some hu),
    outcome_ofExcept, Context.of?]
  split
  · exact ⟨_, rfl, rfl, rfl⟩
  · next none =>
    rw [none] at root
    cases root

theorem outcome_scopeOf (hc : w.context? c = some entry) (bound : entry.unit = some u)
    {scope : Location} (known : entry.scope = some scope) :
    outcome (scopeOf c) w = (.ok scope, w) := by
  rw [scopeOf, outcome_bind_of_ok (outcome_unitOf hc bound),
    outcome_bind_of_ok (outcome_context_of_some hc), known]
  rfl

/-- A bound context locates nodes in the source of its unit. -/
theorem Sound.locatesIn (sound : w.Sound) (trees : w.HasOrderedTrees)
    (hc : w.context? c = some entry) (bound : entry.unit = some u)
    (hu : w.unit? u = some unitEntry) : w.LocatesIn c unitEntry.parsed.source := by
  obtain ⟨unitEntry', a, hu', fits, learned, scope, issues⟩ := sound.learned c entry u hc bound
  cases hu.symm.trans hu'
  have root := ParsedUnit.isSome_root?_of_isWellFormed fits
  obtain ⟨a', learned', scopeSource, issueSources⟩ :=
    ParsedUnit.attachment_isOk (trees u unitEntry hu) root
  cases learned.symm.trans learned'
  obtain ⟨context, answered, -, unit⟩ := outcome_boundContext hc bound hu root
  exact {
    scope := ⟨a.scope, outcome_scopeOf hc bound scope, scopeSource⟩
    issues := ⟨entry, hc, issues ▸ issueSources⟩
    nodes := ⟨context, answered, fun n hn => by
      rw [unit] at hn ⊢
      exact unitEntry.parsed.locate_isOk (trees u unitEntry hu n hn)⟩ }

/-- A bound context answers about the source that it was made for exactly if its unit was parsed
from that source. -/
theorem Sound.answersAbout_iff (sound : w.Sound) (trees : w.HasOrderedTrees)
    (hc : w.context? c = some entry) (bound : entry.unit = some u)
    (hu : w.unit? u = some unitEntry) :
    w.AnswersAbout c entry.source ↔ unitEntry.parsed.source = entry.source := by
  have locates := sound.locatesIn trees hc bound hu
  constructor
  · intro answers
    obtain ⟨l, scope, source⟩ := locates.scope
    obtain ⟨l', scope', source'⟩ := answers.scope
    cases scope.symm.trans scope'
    exact Option.some.inj (source.symm.trans source')
  · intro own
    obtain ⟨unitEntry', -, hu', fits, -⟩ := sound.learned c entry u hc bound
    cases hu.symm.trans hu'
    obtain ⟨context, answered, source, unit⟩ :=
      outcome_boundContext hc bound hu (ParsedUnit.isSome_root?_of_isWellFormed fits)
    refine { own ▸ locates with units := ⟨context, answered, ?_⟩ }
    intro query
    have ordered : context.unit.tree.IsOrdered := unit ▸ trees u unitEntry hu
    have same : context.unit.source = context.source := by rw [unit, own, source]
    rw [← source]
    exact Context.locate_isOk_of_own same ordered query

end Answers

/-- After every run of calls, a bound context locates nodes in the source of its unit, and answers
about its own source exactly if that is the same source. If it is another one, some call has bound
the context to a given unit. -/
theorem answersAbout_own_iff (calls : List Call) (ordered : ∀ call ∈ calls, call.HasOrderedTrees)
    {c : ContextId} {entry : ContextEntry} (hc : (empty.after calls).context? c = some entry)
    (bound : entry.unit ≠ none) :
    ∃ parsed, (empty.after calls).sources? c = some (entry.source, parsed) ∧
      (empty.after calls).LocatesIn c parsed ∧
      ((empty.after calls).AnswersAbout c entry.source ↔ parsed = entry.source) ∧
      (parsed ≠ entry.source → ∃ earlier call later, calls = earlier ++ call :: later ∧
        call.Binds c ∧ (empty.after earlier).sources? c = none ∧
          (outcome call.run (empty.after earlier)).2.sources? c = some (entry.source, parsed)) := by
  have sound := after_sound empty_sound calls
  have trees : (empty.after calls).HasOrderedTrees :=
    after_hasOrderedTrees (fun u unitEntry hu => by simp [empty, unit?] at hu) ordered
  obtain ⟨u, binds⟩ := Option.ne_none_iff_exists'.1 bound
  obtain ⟨unitEntry, -, hu, -⟩ := sound.learned c entry u hc binds
  have pair := sources?_of_bound hc binds hu
  refine ⟨unitEntry.parsed.source, pair, sound.locatesIn trees hc binds hu,
    sound.answersAbout_iff trees hc binds hu, fun foreign => ?_⟩
  exact exists_binds_of_foreign foreign calls empty_sound (by simp [sources?, empty, context?]) pair

/-- A class on one line. -/
def lineSource : Source :=
  ⟨"B", "class B \x7b \x7d"⟩

/-- The tree of a class on one line. -/
def lineGrammar : Grammar := fun _ =>
  .named .program none 0 11 [
    .named .classDeclaration none 0 11 [
      .token "class" 0, .named .identifier (some .name) 6 7 [],
      .named .classBody (some .body) 8 11 [.token "\x7b" 8, .token "\x7d" 10]]]

/-- A source that is parsed and bound in one call. -/
def ownRun : List Call :=
  [.parseSource lineGrammar filesBeforeMembers lineSource]

theorem answersAbout_own_iff_ownRun :
    (∀ call ∈ ownRun, call.HasOrderedTrees) ∧
      ∃ entry, (empty.after ownRun).context? ⟨0⟩ = some entry ∧ entry.unit ≠ none ∧
        (empty.after ownRun).AnswersAbout ⟨0⟩ entry.source := by
  have ordered : ∀ call ∈ ownRun, call.HasOrderedTrees := by
    intro call member
    cases List.mem_singleton.1 member
    have tree : (lineGrammar "").IsOrdered := by decide
    exact fun _ => tree
  have paired : (empty.after ownRun).sources? ⟨0⟩ = some (lineSource, lineSource) := by
    decide
  have there : ((empty.after ownRun).context? ⟨0⟩).any (·.unit.isSome) = true := by decide
  obtain ⟨entry, hc, bound⟩ := (Option.any_eq_true _ _).1 there
  have bound' : entry.unit ≠ none := Option.isSome_iff_ne_none.1 bound
  obtain ⟨parsed, pair, -, about, -⟩ := answersAbout_own_iff ownRun ordered hc bound'
  have same := Prod.mk.inj (Option.some.inj (pair.symm.trans paired))
  exact ⟨ordered, entry, hc, bound', about.2 (same.2.trans same.1.symm)⟩

/-- A class on two lines, as long as the one on one line. -/
def brokenSource : Source :=
  ⟨"A", "class\nA \x7b \x7d"⟩

/-- The beginning of a class. -/
def shortSource : Source :=
  ⟨"C", "class"⟩

/-- Two contexts, each bound to a unit of a third source. -/
def foreignRun : List Call :=
  [.createContext brokenSource, .createContext shortSource,
    .parse lineGrammar filesBeforeMembers lineSource .compilationUnit,
    .parse lineGrammar filesBeforeMembers lineSource .compilationUnit,
    .bind ⟨0⟩ ⟨0⟩, .bindUnit ⟨1⟩ ⟨1⟩]

/-- Every call of the run succeeds. The first context locates its scope in the source of its unit,
and the second one cannot locate a class that ends after its own source. -/
theorem foreignRun_answers_about_other :
    let w := empty.after foreignRun
    (∀ k : Fin foreignRun.length,
      (outcome foreignRun[k].run (empty.after (foreignRun.take k))).1.isOk = true) ∧
      (w.context? ⟨0⟩).map (·.source) = some brokenSource ∧
      (∃ l, outcome (scopeOf ⟨0⟩) w = (.ok l, w) ∧ l.source = some lineSource) ∧
      lineSource ≠ brokenSource ∧
      ∃ f, (outcome (do
        let context ← boundContext ⟨1⟩
        ofExcept (context.locate (.named .classes none none))) w).1 = .error f ∧
          f.family = "InvalidRange" := by
  intro w
  have known : (w.context? ⟨0⟩).any (fun entry => entry.unit.isSome &&
      entry.scope.any fun l => l.source == some lineSource) = true := by decide
  obtain ⟨entry, hc, known⟩ := (Option.any_eq_true _ _).1 known
  obtain ⟨bound, known⟩ := Bool.and_eq_true_iff.1 known
  obtain ⟨u, bound⟩ := Option.isSome_iff_exists.1 bound
  obtain ⟨l, scope, source⟩ := (Option.any_eq_true _ _).1 known
  have failed : (outcome (do
      let context ← boundContext ⟨1⟩
      ofExcept (context.locate (.named .classes none none))) w).1.map (fun _ => ()) =
        .error (.pastContent 11 5) := by decide
  refine ⟨by decide, by decide,
    ⟨l, outcome_scopeOf hc bound scope, beq_iff_eq.1 source⟩, by decide, ?_⟩
  generalize (outcome _ w).1 = answer at failed ⊢
  cases answer with
  | ok found => cases failed
  | error f =>
    cases failed
    exact ⟨_, rfl, rfl⟩

end Workspace

end JavaScope
