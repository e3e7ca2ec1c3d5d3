import JavaScope.Proofs.Environment.Closed
import JavaScope.Proofs.Scope.Growth
import JavaScope.Proofs.Scope.Requests

/-!
# Checked access in scope queries

Which queries leave out what cannot be accessed. The check is made when a collection hands out its
bindings, so every query that collects with the flags of its caller honours it. What is declared or
used later at a method or a statement is collected without flags, and the check has no effect there.
-/

namespace JavaScope

/-! ## Checked queries -/

namespace Scope

/-- What is collected with checked access can be accessed. -/
theorem ensures_collected {e₀ : Environment} {parentType : Option TypeId} {flags : Flags}
    {search : SearchM Collection Bool} (checked : flags.checkVisibility = true)
    (keeps : Keeps (Searching.Within e₀.Grows fun c => c.parentType = parentType ∧ c.flags = flags) search) :
    Ensures e₀.Grows (collected (.new parentType flags) search) fun ds e =>
      ∀ b ∈ ds, e.store.isVisible b parentType = .ok true := by
  intro e he ds e' run
  obtain ⟨stopped, k, k', searched, requested⟩ := collected_eq_ok run
  have kept := keeps ⟨e, .new parentType flags⟩ ⟨he, rfl, rfl⟩
  rw [searched] at kept
  obtain ⟨-, hparent, hflags⟩ := kept
  intro b hb
  rw [← hparent]
  exact ((mem_requested requested b).1 hb).2 (hflags ▸ checked)

/-- The constants of an enum can be accessed from everywhere. -/
theorem isVisible_constant {c : Context} {e₀ e : Environment} (ready : e₀.Ready c)
    (grown : e₀.Grows e) {t : TypeId} {v : VariableId} (hv : v ∈ e.store.enumConstants t)
    (place : Option TypeId) : e.store.isVisible (.variable v) place = .ok true := by
  obtain ⟨listed, constant⟩ := List.mem_filter.1 hv
  rw [(grown.store.declares_eq _).1] at listed
  obtain ⟨-, field, owner, isPublic⟩ := ready.sound.fields _ v listed
  rw [← grown.store.variable_eq v] at field owner isPublic
  have shown : (e.store.modifiers (.variable v)).isPublic = true := isPublic constant
  simp [Store.isVisible, Store.declarationOf, BindingId.variableId?, field, Store.declaringTypeOf,
    Store.declaringClass, owner, shown]
  rfl

theorem ensures_declarationsAtName {c : Context} {e₀ : Environment} (ready : e₀.Ready c)
    {flags : Flags} (checked : flags.checkVisibility = true) (n : Node) :
    Ensures e₀.Grows (declarationsAtName expressionType n flags) fun ds e =>
      ∀ b ∈ ds, e.store.isVisible b (e₀.enclosingType n) = .ok true := by
  refine Ensures.bind (Q := fun _ => e₀.Grows) ?_ fun label => ?_
  · exact (keeps_labelEnum keeps_expressionType n).ensures
  cases label with
  | some t =>
    rintro e he _ _ ⟨⟩ b hb
    obtain ⟨v, hv, rfl⟩ := List.mem_map.1 hb
    exact isVisible_constant ready he hv _
  | none =>
    refine Ensures.bind (Q := fun e₁ e => e₁.enclosingType n = e₀.enclosingType n ∧ e₀.Grows e)
      (.get fun e he => ⟨by rw [he.enclosingType], he⟩) fun e₁ => .of_fact fun same => ?_
    rw [same]
    cases e₀.enclosingType n with
    | none => exact .pure fun _ _ => nofun
    | some around =>
      refine Ensures.bind (Q := fun _ => e₀.Grows)
        (keeps_qualifierOf keeps_expressionType (some n)).ensures fun qualifier => ?_
      have settings := keeps_settings (some around) flags
      cases qualifier with
      | absent =>
        exact ensures_collected checked (keeps_collectAtName keeps_expressionType settings n around flags)
      | type t =>
        exact ensures_collected checked
          ((keeps_collectInherited settings flags t []).bind fun found => .pure found.1)
      | unknown => exact ensures_collected checked (.pure false)

theorem ensures_declarationsInUnit {e₀ : Environment} {flags : Flags}
    (checked : flags.checkVisibility = true) (l : Location) (n : Node) :
    Ensures e₀.Grows (declarationsInUnit l flags (some n)) fun ds e =>
      ∀ b ∈ ds, e.store.isVisible b (e₀.enclosingType n) = .ok true := by
  refine Ensures.bind (Q := fun e₁ e => e₁.enclosingType n = e₀.enclosingType n ∧ e₀.Grows e)
    (.get fun e he => ⟨by rw [he.enclosingType], he⟩) fun e₁ => .of_fact fun same => ?_
  simp only [Option.some_or, Option.getD_some, same]
  have settings := keeps_settings (e₀.enclosingType n) flags
  refine ensures_collected checked
    ((keeps_collectLocal settings keeps_expressionType n _ flags).bind fun _ => ?_)
  split
  · exact keeps_collectTypes settings keeps_expressionType flags _
  · exact .pure false

end Scope

/-! ## What a selector selects -/

namespace Selector

/-- The node that a selector selects. -/
def node? (e : Environment) : Selector → Option Node
  | .node n => n
  | .location l => e.context.firstCovered l

/-- The selector is a location, and what it selects is a method or a statement. -/
def selectsCode (n : Node) : Selector → Bool
  | .node _ => false
  | .location _ => n.kind != .identifier && (n.kind.isMethodDeclaration || n.kind.isStatement)

end Selector

/-- The flags without the check of access. -/
def Flags.unchecked (flags : Flags) : Flags :=
  { flags with checkVisibility := false }

namespace Scope

variable {c : Context} {e₀ e : Environment} {selector : Selector} {flags : Flags} {n : Node}

/-- Unless a location selects code, what is in scope can be accessed if access is checked. -/
theorem ensures_declarationsInScope (ready : e₀.Ready c) (checked : flags.checkVisibility = true)
    (selected : selector.node? e₀ = some n) (code : selector.selectsCode n = false) :
    Ensures e₀.Grows (declarationsInScope selector flags) fun ds e =>
      ∀ b ∈ ds, e.store.isVisible b (e₀.enclosingType n) = .ok true := by
  cases selector with
  | node m =>
    refine .ofExcept_bind fun m' hm => ?_
    cases (needed_eq_ok.1 hm).symm.trans selected
    exact ensures_declarationsAtName ready checked n
  | location l =>
    refine Ensures.bind (Q := fun m e => m = some n ∧ e₀.Grows e) ?_ fun m => .of_fact fun hm => ?_
    · rintro e he _ _ ⟨⟩
      refine ⟨?_, he⟩
      show e.context.firstCovered l = some n
      rw [he.context]
      exact selected
    subst hm
    have code' : n.kind ≠ .identifier → (n.kind.isMethodDeclaration || n.kind.isStatement) = false := by
      simpa [Selector.selectsCode] using code
    refine .ite (fun _ => ensures_declarationsAtName ready checked n) fun name => ?_
    rw [code' (by simpa using name)]
    refine .ite (by simp) fun _ => .ite (fun _ => ensures_declarationsInUnit checked l n) fun _ => ?_
    exact .pure fun _ _ => nofun

/-- At code the check of access has no effect. -/
theorem declarationsInScope_unchecked (selected : selector.node? e = some n)
    (code : selector.selectsCode n = true) :
    outcome (declarationsInScope selector flags) e =
      outcome (declarationsInScope selector flags.unchecked) e := by
  cases selector with
  | node m => cases code
  | location l =>
    have after : ∀ onlyAround, declarationsAfter expressionType n flags onlyAround =
        declarationsAfter expressionType n flags.unchecked onlyAround := fun _ => rfl
    obtain ⟨name, code⟩ : n.kind ≠ .identifier ∧
        (n.kind.isMethodDeclaration || n.kind.isStatement) = true := by
      simpa [Selector.selectsCode] using code
    have name' : (n.kind == .identifier) = false := by simpa using name
    have select : outcome (selectedNode l) e = (.ok (some n), e) := congrArg (Except.ok ·, e) selected
    simp only [declarationsInScope, declarationsAtLocation]
    rw [outcome_bind_of_ok select, outcome_bind_of_ok select]
    simp only [name', code, Bool.false_eq_true, if_false, if_true, after]
    rfl

/-- What a query with checked access reports can be accessed exactly if nothing inaccessible is
declared or used later at the code that a location selects. -/
theorem declarationsInScope_accessible_iff {ds : List BindingId} {e' : Environment}
    (built : Environment.build c = .ok e₀) (grown : e₀.Grows e)
    (checked : flags.checkVisibility = true) (selected : selector.node? e = some n)
    (answered : outcome (declarationsInScope selector flags) e = (.ok ds, e')) :
    (∀ b ∈ ds, e'.store.isVisible b (e'.enclosingType n) = .ok true) ↔
      (selector.selectsCode n = true → ∀ ds' e'',
        outcome (declarationsInScope selector flags.unchecked) e = (.ok ds', e'') →
          ∀ b ∈ ds', e''.store.isVisible b (e''.enclosingType n) = .ok true) := by
  have ready := Environment.build_ready built
  constructor
  · intro accessible code ds' e'' answered'
    rw [← declarationsInScope_unchecked selected code, answered] at answered'
    cases answered'
    exact accessible
  · intro accessible
    rcases code : selector.selectsCode n with _ | _
    · have same : selector.node? e₀ = selector.node? e := by
        cases selector with
        | node _ => rfl
        | location l => exact congrArg (·.firstCovered l) grown.context.symm
      have grown' := keeps_declarationsInScope selector flags e grown
      rw [answered] at grown'
      rw [grown'.enclosingType]
      exact ensures_declarationsInScope ready checked (same.trans selected) code e grown ds e' answered
    · rw [declarationsInScope_unchecked selected code] at answered
      exact accessible code ds e' answered

/-! ## An inaccessible method in use -/

/-- `class A { void m(B b) { b.s(); } } class B { private void s() { } }` -/
def privateCall : Context :=
  .ofFile "class A \x7b void m(B b) \x7b b.s(); \x7d \x7d class B \x7b private void s() \x7b \x7d \x7d" <|
    .named .program none 0 67 [
      .named .classDeclaration none 0 34 [
        .token "class" 0, .named .identifier (some .name) 6 7 [],
        .named .classBody (some .body) 8 34 [
          .token "\x7b" 8,
          .named .methodDeclaration none 10 32 [
            .named .voidType (some .type) 10 14 [], .named .identifier (some .name) 15 16 [],
            .named .formalParameters (some .parameters) 16 21 [
              .token "(" 16,
              .named .formalParameter none 17 20 [
                .named .typeIdentifier (some .type) 17 18 [],
                .named .identifier (some .name) 19 20 []],
              .token ")" 20],
            .named .block (some .body) 22 32 [
              .token "\x7b" 22,
              .named .expressionStatement none 24 30 [
                .named .methodInvocation none 24 29 [
                  .named .identifier (some .object) 24 25 [], .token "." 25,
                  .named .identifier (some .name) 26 27 [],
                  .named (.other "argument_list") (some .arguments) 27 29 [
                    .token "(" 27, .token ")" 28]],
                .token ";" 29],
              .token "\x7d" 31]],
          .token "\x7d" 33]],
      .named .classDeclaration none 35 67 [
        .token "class" 35, .named .identifier (some .name) 41 42 [],
        .named .classBody (some .body) 43 67 [
          .token "\x7b" 43,
          .named .methodDeclaration none 45 65 [
            .named .modifiers none 45 52 [.token "private" 45],
            .named .voidType (some .type) 53 57 [], .named .identifier (some .name) 58 59 [],
            .named .formalParameters (some .parameters) 59 61 [.token "(" 59, .token ")" 60],
            .named .block (some .body) 62 65 [.token "\x7b" 62, .token "\x7d" 64]],
          .token "\x7d" 66]]]

/-- The location of the method `m`. -/
def callerLocation : Location :=
  ⟨none, ⟨0, 10, 10⟩, ⟨0, 32, 32⟩, by decide, nofun⟩

/-- All methods, with checked access. -/
def accessibleMethods : Flags :=
  ⟨true, false, false, true⟩

set_option maxRecDepth 100000 in
theorem privateCall_computed :
    (match Environment.build privateCall with
    | .error _ => none
    | .ok e =>
      match outcome (declarationsInScope (.location callerLocation) accessibleMethods) e with
      | (.error _, _) => none
      | (.ok ds, e') =>
        (e.context.firstCovered callerLocation).map fun n =>
          ds.map fun b => (e'.store.isVisible b (e'.enclosingType n)).toOption) =
      some [some true, some false] := by
  decide +kernel

theorem privateCall_answered :
    ∃ e n ds e', Environment.build privateCall = .ok e ∧
      (Selector.location callerLocation).node? e = some n ∧
      outcome (declarationsInScope (.location callerLocation) accessibleMethods) e = (.ok ds, e') ∧
      ∃ b ∈ ds, e'.store.isVisible b (e'.enclosingType n) = .ok false := by
  have computed := privateCall_computed
  split at computed
  · cases computed
  · next e built =>
    split at computed
    · cases computed
    · next ds e' answered =>
      obtain ⟨n, selected, found⟩ := Option.map_eq_some_iff.1 computed
      have : some false ∈ ds.map fun b => (e'.store.isVisible b (e'.enclosingType n)).toOption := by
        simp [found]
      obtain ⟨b, hb, hidden⟩ := List.mem_map.1 this
      refine ⟨e, n, ds, e', built, selected, answered, b, hb, ?_⟩
      rcases visible : e'.store.isVisible b (e'.enclosingType n) with _ | _
      · rw [visible] at hidden
        cases hidden
      · rw [visible] at hidden
        cases hidden
        rfl

/-- The private method that `m` calls is reported at `m` although access is checked. -/
theorem privateCall_reports_inaccessible :
    ¬ ∀ (c : Context) (e e' : Environment) (selector : Selector) (flags : Flags) (n : Node)
        (ds : List BindingId),
      Environment.build c = .ok e → flags.checkVisibility = true → selector.node? e = some n →
        outcome (declarationsInScope selector flags) e = (.ok ds, e') →
          ∀ b ∈ ds, e'.store.isVisible b (e'.enclosingType n) = .ok true := by
  intro claim
  obtain ⟨e, n, ds, e', built, selected, answered, b, hb, hidden⟩ := privateCall_answered
  have visible := claim _ e e' _ _ n ds built rfl selected answered b hb
  rw [hidden] at visible
  cases visible

theorem declarationsInScope_accessible_iff_privateCall :
    ∃ e n ds e', Environment.build privateCall = .ok e ∧ accessibleMethods.checkVisibility = true ∧
      (Selector.location callerLocation).node? e = some n ∧
      outcome (declarationsInScope (.location callerLocation) accessibleMethods) e = (.ok ds, e') ∧
      ((∀ b ∈ ds, e'.store.isVisible b (e'.enclosingType n) = .ok true) ↔
        ((Selector.location callerLocation).selectsCode n = true → ∀ ds' e'',
          outcome (declarationsInScope (.location callerLocation) accessibleMethods.unchecked) e =
              (.ok ds', e'') →
            ∀ b ∈ ds', e''.store.isVisible b (e''.enclosingType n) = .ok true)) := by
  obtain ⟨e, n, ds, e', built, selected, answered, -⟩ := privateCall_answered
  exact ⟨e, n, ds, e', built, rfl, selected, answered,
    declarationsInScope_accessible_iff built (.refl e) rfl selected answered⟩

end Scope

end JavaScope
