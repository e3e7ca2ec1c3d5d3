import JavaScope.Proofs.Source.Offsets
import JavaScope.Proofs.Workspace.Sources

/-!
# The scope of a bound context

The root of a whole file spans its source. The root of a fragment begins in the wrapper before the
source, and the unit fits its mode only where the wrapper closes after the source; so both ends of the
root are cut off at the ends of the source. A bound context therefore has the whole source as its
scope, and a fragment that closes its wrapper itself is never bound.
-/

namespace JavaScope

/-- Every node lies within the bytes of the node above it. -/
def Tree.HasInnerParts (t : Tree) : Prop :=
  ∀ n ∈ t.root.preorder, ∀ c ∈ n.children, n.start ≤ c.start ∧ c.stop ≤ n.stop

instance (t : Tree) : Decidable t.HasInnerParts :=
  inferInstanceAs (Decidable (∀ n ∈ t.root.preorder, ∀ c ∈ n.children, _ ∧ _))

/-- The location spans all characters of the source. -/
structure Location.Spans (l : Location) (s : Source) : Prop where
  source : l.source = some s
  start : l.start = s.positionAt 0
  stop : l.stop = s.positionAt s.length

namespace ParsedUnit

open Text.Utf8

variable {u : ParsedUnit} {root : Node}

/-! ## The ends of the source -/

theorem charOffset_of_le_openingBytes {byte : Nat} (h : byte ≤ u.openingBytes) :
    u.charOffset byte = 0 := by
  have shifted : min ((byte : Int) - u.openingBytes).toNat u.source.byteLength = size [] := by
    rw [size_nil]
    omega
  exact charOffset_eq_length (List.nil_append u.source.chars).symm shifted

theorem charOffset_of_contentEnd_le {byte : Nat} (h : u.contentEnd ≤ byte) :
    u.charOffset byte = u.source.length := by
  have shifted : min ((byte : Int) - u.openingBytes).toNat u.source.byteLength =
      size u.source.chars := by
    rw [← Source.byteLength_eq_size]
    rw [contentEnd] at h
    omega
  rw [charOffset_eq_length (List.append_nil u.source.chars).symm shifted, Source.length_chars]

/-! ## The wrapper of a fragment -/

/-- In a fragment, the node that stands for the unit begins before the source. -/
def BeginsInWrapper (u : ParsedUnit) : Prop :=
  u.mode.isFragment = true → ∀ root ∈ u.root?, root.start ≤ u.openingBytes

instance (u : ParsedUnit) : Decidable u.BeginsInWrapper :=
  inferInstanceAs (Decidable (_ → ∀ root ∈ u.root?, _))

/-- The part of the wrapper around a fragment that holds the source: the body of the wrapper class,
or that of the wrapper method. -/
def wrapperBody? (u : ParsedUnit) : Option Node :=
  match u.mode with
  | .compilationUnit => none
  | .typeBody => u.root?.bind (·.childByField .body)
  | .statements => u.root?

/-- The body of the wrapper ends before the source does, or together with it. -/
def ClosesEarly (u : ParsedUnit) : Prop :=
  ∃ body ∈ u.wrapperBody?, body.stop ≤ u.contentEnd

instance (u : ParsedUnit) : Decidable u.ClosesEarly :=
  inferInstanceAs (Decidable (∃ body ∈ u.wrapperBody?, _))

theorem closesAfter_iff {n : Node} {stop : Nat} :
    n.closesAfter (some stop) = true ↔ stop < n.stop := by
  simp [Node.closesAfter]

/-- In a fragment that fits its mode, the wrapper closes after the source. -/
theorem exists_wrapperBody (fragment : u.mode.isFragment = true) (fits : u.isWellFormed = true) :
    ∃ body, u.wrapperBody? = some body ∧ u.contentEnd < body.stop := by
  unfold isWellFormed Document.isWellFormedRoot at fits
  cases located : u.root? with
  | none => simp [located] at fits
  | some root =>
    cases mode : u.mode with
    | compilationUnit => simp [mode, Mode.isFragment] at fragment
    | typeBody =>
      simp only [located, mode, Document.isTypeBodyRoot, Bool.and_eq_true] at fits
      obtain ⟨body, there, closes⟩ := (Option.any_eq_true _ _).1 fits.1.2
      exact ⟨body, by simp [wrapperBody?, mode, located, there], closesAfter_iff.1 closes⟩
    | statements =>
      simp only [located, mode, Document.isStatementsRoot, Bool.and_eq_true] at fits
      exact ⟨root, by simp [wrapperBody?, mode, located], closesAfter_iff.1 fits.1.2⟩

theorem isFragment_of_wrapperBody? {body : Node} (h : u.wrapperBody? = some body) :
    u.mode.isFragment = true := by
  rw [Mode.isFragment_iff]
  intro mode
  simp [wrapperBody?, mode] at h

theorem ClosesEarly.isWellFormed_eq_false (early : u.ClosesEarly) : u.isWellFormed = false := by
  obtain ⟨body, there, stop⟩ := early
  rw [← Bool.not_eq_true]
  intro fits
  obtain ⟨body', there', closes⟩ := exists_wrapperBody (isFragment_of_wrapperBody? there) fits
  cases there.symm.trans there'
  omega

/-! ## The root of a unit that fits -/

theorem contentEnd_lt_stop (parts : u.tree.HasInnerParts) (fragment : u.mode.isFragment = true)
    (fits : u.isWellFormed = true) (located : u.root? = some root) : u.contentEnd < root.stop := by
  obtain ⟨body, there, closes⟩ := exists_wrapperBody fragment fits
  cases mode : u.mode with
  | compilationUnit => simp [wrapperBody?, mode] at there
  | typeBody =>
    -- the body lies within the wrapper class
    simp only [wrapperBody?, mode, located, Option.bind_some] at there
    have inside := parts root (mem_preorder_of_root? located) body
      (Node.mem_children_of_childByField there).1
    omega
  | statements =>
    simp only [wrapperBody?, mode, located] at there
    cases there
    exact closes

variable (parts : u.tree.HasInnerParts) (begins : u.BeginsInWrapper)
include parts begins

theorem charRange_root (fits : u.isWellFormed = true) (located : u.root? = some root) :
    u.charRange root = (0, u.source.length) := by
  cases fragment : u.mode.isFragment with
  | false =>
    have mode : u.mode = .compilationUnit := by
      by_contra other
      rw [Mode.isFragment_iff.2 other] at fragment
      cases fragment
    rw [root?, mode] at located
    cases located
    simp [charRange, mode, document, Document.root, Node.isSame]
  | true =>
    have other := Mode.isFragment_iff.1 fragment
    have start := begins fragment root located
    have stop := contentEnd_lt_stop parts fragment fits located
    rw [charRange, if_neg (by simp [other]), charOffset_of_le_openingBytes start,
      charOffset_of_contentEnd_le (Nat.le_of_lt stop)]

theorem locate_root (fits : u.isWellFormed = true) :
    ∃ root scope, u.root? = some root ∧ u.locate root = .ok scope ∧ scope.Spans u.source := by
  obtain ⟨root, located⟩ := Option.isSome_iff_exists.1 (isSome_root?_of_isWellFormed fits)
  obtain ⟨scope, answer, source, start, stop⟩ :=
    Source.location?_isOk (s := u.source) (Nat.zero_le u.source.length) (Nat.le_refl _)
  refine ⟨root, scope, located, ?_, source, start, stop⟩
  rw [locate, charRange_root parts begins fits located]
  exact answer

/-- What a unit that fits its mode tells a context fails only where the syntax issues do, and the
scope spans the whole source. -/
theorem attachment_spans (fits : u.isWellFormed = true) :
    (∀ f, u.syntaxIssues = .error f → u.attachment = .error f) ∧
      ∀ issues, u.syntaxIssues = .ok issues →
        ∃ scope, u.attachment = .ok ⟨scope, issues⟩ ∧ scope.Spans u.source := by
  obtain ⟨root, scope, located, answer, spans⟩ := locate_root parts begins fits
  have learns : u.attachment = (do
      let issues ← u.syntaxIssues
      return ⟨scope, issues⟩) := by
    rw [attachment_eq located, answer]
    rfl
  rw [learns]
  constructor
  · intro f failed
    rw [failed]
    rfl
  · intro issues listed
    rw [listed]
    exact ⟨scope, rfl, spans⟩

end ParsedUnit

namespace Workspace

variable {u : ParsedUnit} {w : Workspace} {c : ContextId} {id : UnitId} {entry : ContextEntry}

/-! ## Scopes of bound contexts -/

/-- A context that is bound to a unit which fits its mode has the scope that the unit told. -/
theorem outcome_scopeOf_linked (hc : w.context? c = some entry) (a : Attachment)
    (messages : List String) : outcome (scopeOf c) ((w.linked c id a).noting messages) =
      (.ok a.scope, (w.linked c id a).noting messages) := by
  have there : ((w.linked c id a).noting messages).context? c =
      some { entry with unit := some id, scope := some a.scope, issues := a.issues } := by
    rw [context?_noting, context?_linked, if_pos rfl, hc]
    rfl
  exact outcome_scopeOf there rfl rfl

/-- The context and the unit are there, and neither is bound. -/
structure BothFree (w : Workspace) (c : ContextId) (entry : ContextEntry) (id : UnitId)
    (u : ParsedUnit) : Prop where
  context : w.context? c = some entry
  unit : w.unit? id = some ⟨u, none⟩
  free : entry.unit = none

/-- What binding a context to a unit that fits comes to, where neither is bound: only the syntax
issues can fail, and otherwise the scope of the context spans the source. -/
structure BindsWhole (w : Workspace) (c : ContextId) (id : UnitId) (u : ParsedUnit)
    (s : Source) : Prop where
  fails : ∀ f, u.syntaxIssues = .error f → outcome (bind c id) w = (.error f, w)
  binds : ∀ issues, u.syntaxIssues = .ok issues → ∃ w' scope, outcome (bind c id) w = (.ok ⟨⟩, w') ∧
    outcome (scopeOf c) w' = (.ok scope, w') ∧ scope.Spans s

section Span

variable (parts : u.tree.HasInnerParts) (begins : u.BeginsInWrapper)
include parts begins

theorem BothFree.bindsWhole (both : w.BothFree c entry id u) (fits : u.isWellFormed = true)
    (own : entry.source = u.source) : w.BindsWhole c id u entry.source := by
  obtain ⟨fails, learns⟩ := ParsedUnit.attachment_spans parts begins fits
  constructor
  · intro f failed
    have cases := bind_cases both.context both.unit
    generalize outcome (bind c id) w = result at cases ⊢
    cases cases with
    | contextBound taken => simp [both.free] at taken
    | malformed _ unfit => simp [fits] at unfit
    | unlocated _ _ failed' =>
      cases (fails f failed).symm.trans failed'
      rfl
    | unitBound _ _ learned => simp [fails f failed] at learned
    | bound _ _ learned => simp [fails f failed] at learned
  · intro issues listed
    obtain ⟨scope, learned, spans⟩ := learns issues listed
    rw [own]
    exact ⟨_, scope, outcome_bind_of_free both.context both.unit both.free rfl fits learned,
      outcome_scopeOf_linked both.context _ _, spans⟩

/-- After every run of calls, a context that is bound to the unit has the whole source as its
scope. -/
theorem after_scopeOf {unitEntry : UnitEntry} (calls : List Call)
    (hc : (empty.after calls).context? c = some entry) (bound : entry.unit = some id)
    (hu : (empty.after calls).unit? id = some unitEntry) (same : unitEntry.parsed = u) :
    ¬ u.ClosesEarly ∧ ∃ scope, outcome (scopeOf c) (empty.after calls) =
      (.ok scope, empty.after calls) ∧ scope.Spans u.source := by
  have sound := after_sound empty_sound calls
  obtain ⟨unitEntry', a, hu', fits, learned, known, -⟩ := sound.learned c entry id hc bound
  cases hu.symm.trans hu'
  subst same
  constructor
  · intro early
    rw [early.isWellFormed_eq_false] at fits
    cases fits
  · obtain ⟨fails, learns⟩ := ParsedUnit.attachment_spans parts begins fits
    cases listed : unitEntry.parsed.syntaxIssues with
    | error f =>
      rw [fails f listed] at learned
      cases learned
    | ok issues =>
      obtain ⟨scope, learned', spans⟩ := learns issues listed
      cases learned.symm.trans learned'
      exact ⟨scope, outcome_scopeOf hc bound known, spans⟩

/-- The root of a unit that fits its mode can be located, and a context that is bound to the unit has
the whole source as its scope, also after any calls. Binding fails only where a syntax issue cannot
be located, and where no node ends before it starts each of them can. A fragment that closes its
wrapper before its source ends does not fit, so it is refused and never bound. -/
theorem bind_spans_source :
    (u.isWellFormed = true →
      (∃ root scope, u.root? = some root ∧ u.locate root = .ok scope ∧ scope.Spans u.source) ∧
        (u.tree.IsOrdered → ∃ issues, u.syntaxIssues = .ok issues) ∧
        ∀ w c entry id, BothFree w c entry id u → entry.source = u.source →
          w.BindsWhole c id u entry.source) ∧
      (u.ClosesEarly → u.isWellFormed = false ∧
        ∀ w c entry id, BothFree w c entry id u → w.Refuses c id "MalformedUnitError") ∧
      ∀ calls c entry id unitEntry, (empty.after calls).context? c = some entry →
        entry.unit = some id → (empty.after calls).unit? id = some unitEntry →
          unitEntry.parsed = u → ¬ u.ClosesEarly ∧
            ∃ scope, outcome (scopeOf c) (empty.after calls) = (.ok scope, empty.after calls) ∧
              scope.Spans u.source := by
  refine ⟨?_, ?_, ?_⟩
  · intro fits
    refine ⟨ParsedUnit.locate_root parts begins fits, ?_, ?_⟩
    · intro ordered
      obtain ⟨issues, listed, -⟩ := ParsedUnit.syntaxIssues_isOk ordered
      exact ⟨issues, listed⟩
    · intro w c entry id both own
      exact both.bindsWhole parts begins fits own
  · intro early
    have unfit := early.isWellFormed_eq_false
    refine ⟨unfit, ?_⟩
    intro w c entry id both
    exact refuses_malformed both.context both.unit both.free rfl unfit
  · intro calls c entry id unitEntry hc bound hu same
    exact after_scopeOf parts begins calls hc bound hu same

end Span

/-- Members that close the wrapper class and open another class, which the wrapper then closes. -/
def closingUnit : ParsedUnit :=
  ⟨⟨"members", "\x7d class X \x7b int f;"⟩, .typeBody, .named .program none 0 36 [
    .named .classDeclaration none 0 17 [
      .token "class" 0, .named .identifier (some .name) 6 13 [],
      .named .classBody (some .body) 14 17 [.token "\x7b" 14, .token "\x7d" 16]],
    .named .classDeclaration none 18 36 [
      .token "class" 18, .named .identifier (some .name) 24 25 [],
      .named .classBody (some .body) 26 36 [
        .token "\x7b" 26, memberTree .fieldDeclaration 28, .token "\x7d" 35]]], true⟩

theorem bind_spans_source_accented :
    Context.accentedUnit.tree.HasInnerParts ∧ Context.accentedUnit.BeginsInWrapper ∧
      Context.accentedUnit.isWellFormed = true ∧
      (∃ root scope, Context.accentedUnit.root? = some root ∧
        Context.accentedUnit.locate root = .ok scope ∧ scope.Spans Context.accentedUnit.source) ∧
      closingUnit.tree.HasInnerParts ∧ closingUnit.BeginsInWrapper ∧ closingUnit.ClosesEarly ∧
      closingUnit.isWellFormed = false := by
  have parts : Context.accentedUnit.tree.HasInnerParts := by decide
  have begins : Context.accentedUnit.BeginsInWrapper := by decide
  have fits : Context.accentedUnit.isWellFormed = true := by decide
  have parts' : closingUnit.tree.HasInnerParts := by decide
  have begins' : closingUnit.BeginsInWrapper := by decide
  have early : closingUnit.ClosesEarly := by decide
  exact ⟨parts, begins, fits, ((bind_spans_source parts begins).1 fits).1, parts', begins', early,
    ((bind_spans_source parts' begins').2.1 early).1⟩

-- The source has thirteen characters and fourteen bytes.
example : Context.accentedUnit.root?.map Context.accentedUnit.charRange = some (0, 13) := by
  decide

end Workspace

end JavaScope
