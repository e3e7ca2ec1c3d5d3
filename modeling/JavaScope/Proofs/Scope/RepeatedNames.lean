import JavaScope.Proofs.Scope.Outwards
import JavaScope.Proofs.Scope.RepeatedMembers

/-!
# Names that are resolved again

A name that was resolved is resolved to the same binding, a call to the same method, and an expression
has the same type, whatever was asked in between. The typing of expressions is a parameter up to the
point where the circle is closed.
-/

namespace JavaScope

open Environment EnvironmentM Scope

variable {e e₂ : Environment} {st : Searching Collection} {typeOf : Typing}

/-! ## Enums and their constants -/

theorem isEnum_of_isWildcard {s : Store} {t : TypeId} {text : String}
    (wildcard : (s.type t).IsWildcard text) : s.isEnum t = false := by
  obtain ⟨bounds, binding⟩ := wildcard
  have self : s.declarationOfType t = t := by
    rw [Store.declarationOfType, binding]
    rfl
  rw [Store.isEnum, self, binding]
  rfl

theorem isEnum_of_alike (agrees : e.Agrees e₂) {t t' : TypeId} (alike : Alike e e₂ t t') :
    e₂.store.isEnum t' = e.store.isEnum t := by
  cases alike with
  | same has =>
    rw [Store.isEnum, Store.isEnum, agrees.apart.declarationOfType_eq has,
      agrees.type_eq (agrees.apart.has_declarationOfType has)]
  | wildcard one other => rw [isEnum_of_isWildcard one, isEnum_of_isWildcard other]

theorem enumConstants_eq (agrees : e.Agrees e₂) {t : TypeId} (has : e.store.Has (.type t)) :
    e₂.store.enumConstants t = e.store.enumConstants t := by
  simp only [Store.enumConstants, agrees.apart.declarationOfType_eq has,
    agrees.type_eq (agrees.apart.has_declarationOfType has), agrees.grown.store.variable_eq]

/-! ## Local declarations -/

section Local

variable {e₀ : Environment} {p : ScopePoint} (repeatable : ∀ n, IsRepeatable (typeOf n))

include repeatable

theorem keeps_typing (e : Environment) (n : Node) : Keeps e.Grows (typeOf n) :=
  have := (repeatable n).growing
  Growing.keeps (typeOf n) e

omit repeatable in
theorem growing_constants (o : Option TypeId) : Growing (match o with
    | none => pure false
    | some t => do
      let s ← SearchM.read Environment.store
      if s.isEnum t then SearchM.offerAll ((s.enumConstants t).map .variable)
      else return false : SearchM Collection Bool) := by
  cases o <;> infer_instance

theorem isRepeatedFrom_labelConstants (n : Node) :
    IsRepeatedFrom e₀ (LocalWalk.labelConstants typeOf n) := by
  unfold LocalWalk.labelConstants
  split
  · exact IsRepeatedFrom.composes.pure
  · split
    · exact IsRepeatedFrom.composes.pure
    · next condition _ =>
      have := (repeatable condition).growing
      have := growing_constants
      refine ⟨Growing.bind _ _, fun st e₂ _ => ?_⟩
      refine ((repeatable condition).repeats st.environment e₂).lift.bind growing_constants ?_
      rintro o o' st₁ e₃ - - (agrees : st₁.environment.Agrees e₃) alike
      cases alike with
      | none => exact .pure fun _ => rfl
      | some alike =>
        refine .searchRead_bind ?_
        rw [isEnum_of_alike agrees alike]
        refine .ite (fun isEnum => ?_) fun _ => .pure fun _ => rfl
        cases alike with
        | same has =>
          rw [enumConstants_eq agrees has]
          exact repeats_offerAll (by simp)
        | wildcard one _ => exact absurd (isEnum.symm.trans (isEnum_of_isWildcard one)) nofun

variable (closed : e₀.Closed) (declares : p.bindingOf = e₀.bindingOf)

include closed declares

omit repeatable in
theorem isRepeatedFrom_offer (n : Node) :
    IsRepeatedFrom e₀ (SearchM.offer (p.bindingOf n)) := by
  refine .offer fun u declared => ?_
  rw [declares] at declared
  obtain ⟨key, filed⟩ := exists_mem_of_bindingOf declared
  exact closed.declared _ (List.mem_map_of_mem filed)

/-- The walk at a node and the walks below it are repeated. -/
theorem isRepeatedFrom_run (n : Node) : IsRepeatedFrom e₀ (LocalWalk.run typeOf p n) := by
  have both : IsRepeatedFrom e₀ (LocalWalk.run typeOf p n) ∧
      ∀ c ∈ n.children, IsRepeatedFrom e₀ (LocalWalk.run typeOf p c) := by
    induction n using Node.induction with
    | h n ih =>
      refine ⟨?_, fun c hc => (ih c hc).1⟩
      by_cases named : n.isNamed
      · rw [LocalWalk.run_eq_level typeOf p n named]
        refine IsRepeatedFrom.composes.level (fun d hd => (ih d hd).1)
          (fun d hd _ => (ih d hd).2) (fun _ _ => isRepeatedFrom_offer closed declares n)
          (fun _ _ _ => isRepeatedFrom_labelConstants repeatable n) ?_
        intro _ _ _ list below _
        exact IsRepeatedFrom.composes.lambdaParameters
          (fun d _ _ => isRepeatedFrom_offer closed declares d) (ih list below).2
      · rw [LocalWalk.run_of_not_named typeOf p n (by simpa using named)]
        exact IsRepeatedFrom.composes.pure
  exact both.1

end Local

/-! ## Declarations around a name -/

section Around

variable (repeatable : ∀ n, IsRepeatable (typeOf n))

include repeatable

theorem growing_collectLocal (n : Node) (position : Nat) (flags : Flags) :
    Growing (collectLocal (σ := Collection) typeOf n position flags) :=
  .of_within fun e => keeps_collectLocal keeps_true (keeps_typing repeatable e) n position flags

theorem repeats_collectLocal (n : Node) (position : Nat) (flags : Flags) :
    Repeats st e₂ (collectLocal typeOf n position flags) (collectLocal typeOf n position flags)
      SameAnswer := by
  have := growing_collectLocal repeatable n position flags
  refine .of_agrees fun (agrees : st.environment.Agrees e₂) => ?_
  refine .ite (fun _ => ?_) fun _ => .pure fun _ => rfl
  split
  · exact .pure fun _ => rfl
  · next declaration _ =>
    refine .get_bind ?_
    show Repeats st e₂ _ (LocalWalk.run typeOf ⟨e₂.context.unit, e₂.bindingOf, position, flags⟩
      declaration) SameAnswer
    rw [agrees.grown.context, agrees.grown.bindingOf]
    exact (isRepeatedFrom_run repeatable agrees.closed rfl declaration).repeats st e₂ (.refl _)

/-! ### Outwards through the enclosing types -/

omit repeatable in
instance growing_offerType (flags : Flags) (t : TypeId) :
    Growing (offerType (σ := Collection) flags t) :=
  .of_within fun _ => keeps_offerType keeps_true flags t

omit repeatable in
theorem repeats_offerType (flags : Flags) {t : TypeId} (has : st.environment.store.Has (.type t)) :
    Repeats st e₂ (offerType flags t) (offerType flags t) SameAnswer := by
  refine .of_agrees fun (agrees : st.environment.Agrees e₂) => .searchRead_bind ?_
  rw [agrees.type_eq has]
  refine .ite (fun _ => ?_) fun _ => .pure fun _ => rfl
  refine repeats_offerAll fun u member => ?_
  have parameter : u = t ∨ u ∈ (st.environment.store.type t).typeParameters := by simpa using member
  rcases parameter with rfl | parameter
  · exact has
  · exact agrees.closed.store.types t u (by simp [TypeBinding.links, parameter])

theorem growing_collectAroundLocalType (flags : Flags) (n outer : Node) (isAnonymous : Bool) :
    Growing (collectAroundLocalType (σ := Collection) typeOf flags n outer isAnonymous) :=
  .of_within fun e => Keeps.get.bind fun _ =>
    keeps_collectLocal keeps_true (keeps_typing repeatable e) _ _ flags

theorem repeats_collectAroundLocalType (flags : Flags) (n outer : Node) (isAnonymous : Bool) :
    Repeats st e₂ (collectAroundLocalType typeOf flags n outer isAnonymous)
      (collectAroundLocalType typeOf flags n outer isAnonymous) SameAnswer := by
  have := growing_collectAroundLocalType repeatable flags n outer isAnonymous
  refine .of_agrees fun (agrees : st.environment.Agrees e₂) => .get_bind ?_
  show Repeats st e₂ _ (collectLocal typeOf outer (e₂.context.unit.charStart _) flags) SameAnswer
  rw [agrees.grown.context]
  exact repeats_collectLocal repeatable outer _ flags

theorem growing_stepOutFrom (flags : Flags) (e : Environment) (t : TypeId) :
    Growing (stepOutFrom (σ := Collection) typeOf flags e t) := by
  have := growing_collectAroundLocalType repeatable flags
  unfold stepOutFrom
  dsimp only
  split
  · split <;> infer_instance
  · split <;> infer_instance

/-- Both steps outwards are stopped, or lead to the same type around. -/
theorem repeats_stepOutFrom (flags : Flags) {t : TypeId} (has : st.environment.store.Has (.type t)) :
    Repeats st e₂ (stepOutFrom typeOf flags st.environment t) (stepOutFrom typeOf flags e₂ t)
      fun x x' e _ => x' = x ∧ ∀ u ∈ x.2, e.store.Has (.type u) := by
  have := growing_stepOutFrom repeatable flags st.environment t
  have := growing_collectAroundLocalType repeatable flags
  refine .of_agrees fun (agrees : st.environment.Agrees e₂) => ?_
  unfold stepOutFrom
  rw [agrees.type_eq has]
  refine .ite (fun _ => ?_) fun _ => ?_
  · split
    · next n outer _ _ =>
      refine (repeats_collectAroundLocalType repeatable flags n outer _).bind
        (fun _ => inferInstance) ?_
      rintro stopped _ st₁ e₃ - - (agrees : st₁.environment.Agrees e₃) rfl
      refine .ite (fun _ => .pure fun _ => ⟨rfl, by simp⟩) fun _ => .get_bind ?_
      show Repeats st₁ e₃ _ (pure (false, e₃.enclosingType outer)) _
      rw [agrees.grown.enclosingType]
      refine .pure fun _ => ⟨rfl, fun u around => ?_⟩
      exact has_of_declares agrees.closed (declares_enclosingType around)
    · exact .pure fun _ => ⟨rfl, by simp⟩
  · split
    · next around owner =>
      refine .pure fun _ => ⟨rfl, ?_⟩
      rintro _ ⟨⟩
      exact agrees.closed.store.types t around (by simp [TypeBinding.links, owner])
    · rw [agrees.grown.types]
      refine .ite (fun _ => ?_) fun _ => .pure fun _ => ⟨rfl, by simp⟩
      have top : IsRepeatedFrom st.environment
          (SearchM.offerAll (st.environment.types.map .type)) :=
        .offerAll fun u member => agrees.closed.types u (by simpa using member)
      refine (top.repeats st e₂ (.refl _)).bind_pure ?_
      rintro stopped _ _ _ rfl
      exact ⟨rfl, by simp⟩

theorem growing_stepOut (flags : Flags) (t : TypeId) :
    Growing (stepOut (σ := Collection) typeOf flags t) :=
  have := fun e => growing_stepOutFrom repeatable flags e t
  Growing.bind get fun st => stepOutFrom typeOf flags st.environment t

theorem growing_collectTypesWith (flags : Flags) (fuel : Nat) (t : TypeId) (visited : List TypeId) :
    Growing (collectTypesWith (σ := Collection) typeOf flags fuel t visited) :=
  .of_within fun e => keeps_collectTypesWith keeps_true (keeps_typing repeatable e) flags fuel t visited

/-- The search from what lies around a type, after the step outwards. -/
theorem growing_afterStep (flags : Flags) (fuel : Nat) (visited : List TypeId)
    (found : Bool × Option TypeId) :
    Growing (if found.1 then pure true else match found.2 with
      | some around => collectTypesWith (σ := Collection) typeOf flags fuel around visited
      | none => pure false) := by
  have := growing_collectTypesWith repeatable flags fuel
  obtain ⟨stopped, _ | around⟩ := found <;> infer_instance

/-- What was offered outwards is offered again, also with more fuel. -/
theorem repeats_collectTypesWith (flags : Flags) {fuel fuel' : Nat} (enough : fuel ≤ fuel')
    {t : TypeId} (has : st.environment.store.Has (.type t)) (visited : List TypeId) :
    Repeats st e₂ (collectTypesWith typeOf flags fuel t visited)
      (collectTypesWith typeOf flags fuel' t visited) SameAnswer := by
  -- the second run starts in a larger environment, so it may have more fuel
  induction fuel generalizing fuel' st e₂ t visited with
  | zero => exact .throw
  | succ fuel ih =>
    obtain ⟨fuel', rfl⟩ : ∃ more, fuel' = more + 1 := ⟨fuel' - 1, by omega⟩
    have grows : ∀ visited, Growing (searchAround (σ := Collection) typeOf flags fuel t visited) :=
      fun visited =>
        have := growing_stepOut repeatable flags t
        have := growing_afterStep repeatable flags fuel visited
        Growing.bind (stepOut typeOf flags t) _
    rw [collectTypesWith_succ, collectTypesWith_succ]
    refine (repeats_offerType flags has).bind (fun _ => inferInstance) ?_
    rintro stopped _ st₁ e₃ grown - - rfl
    refine .ite (fun _ => .pure fun _ => rfl) fun _ => ?_
    have there := grown.store.has has
    refine (repeats_collectInherited flags there visited).bind (fun found => grows found.2) ?_
    rintro ⟨_, visited⟩ _ st₂ e₄ grown' - - rfl
    have step : Repeats st₂ e₄ (stepOut typeOf flags t) (stepOut typeOf flags t) _ :=
      .get_bind (repeats_stepOutFrom repeatable flags (grown'.store.has there))
    have := growing_stepOut repeatable flags t
    refine step.bind (growing_afterStep repeatable flags fuel visited) ?_
    rintro ⟨stopped, around⟩ _ st₃ e₅ - - - ⟨rfl, known⟩
    refine .ite (fun _ => .pure fun _ => rfl) fun _ => ?_
    cases around with
    | none => exact .pure fun _ => rfl
    | some around => exact ih (by omega) (known around rfl) visited

theorem growing_collectTypes (flags : Flags) (t : TypeId) :
    Growing (collectTypes (σ := Collection) typeOf flags t) :=
  .of_within fun e => keeps_collectTypes keeps_true (keeps_typing repeatable e) flags t

theorem repeats_collectTypes (flags : Flags) {t : TypeId} (has : st.environment.store.Has (.type t)) :
    Repeats st e₂ (collectTypes typeOf flags t) (collectTypes typeOf flags t) SameAnswer := by
  have := growing_collectTypes repeatable flags t
  refine .of_agrees fun (agrees : st.environment.Agrees e₂) => .searchRead_bind ?_
  have size := agrees.grown.store.size
  exact repeats_collectTypesWith repeatable flags (by omega) has []

end Around

namespace Scope

/-! ## Collecting -/

/-- Both answers are the same bindings. -/
def SameBindings (ds ds' : List BindingId) (e _e₂ : Environment) : Prop :=
  ds' = ds ∧ ∀ u, .type u ∈ ds → e.store.Has (.type u)

section Collecting

variable {request : Collection} {search : SearchM Collection Bool}

theorem outcome_collected_snd :
    (outcome (collected request search) e).2 = (outcome search ⟨e, request⟩).2.environment := by
  rcases run : outcome search ⟨e, request⟩ with ⟨f | stopped, ⟨e', k⟩⟩
  · rw [outcome_collected_of_error run]
  · rw [outcome_collected run]

theorem growing_collected (h : Growing search) : Growing (collected request search) := by
  refine ⟨fun e => ?_⟩
  show e.Grows (outcome (collected request search) e).2
  rw [outcome_collected_snd]
  exact h.grows ⟨e, request⟩

/-- Nothing dangles after a collection, also if access is checked. -/
theorem closed_collected (new : request.bindings = [])
    (h : ∀ e₂, Repeats ⟨e, request⟩ e₂ search search SameAnswer) (closed : e.Closed) :
    (outcome (collected request search) e).2.Closed := by
  rw [outcome_collected_snd]
  exact (Repeats.stored h ⟨closed, by simp [new]⟩).1

/-- Without a check of access, the same is collected again. -/
theorem repeats_collected (new : request.bindings = [])
    (unchecked : request.flags.checkVisibility = false)
    (kept : (outcome search ⟨e, request⟩).2.request.flags = request.flags)
    (h : Repeats ⟨e, request⟩ e₂ search search SameAnswer) :
    Repeats e e₂ (collected request search) (collected request search) SameBindings := by
  intro closed grown
  unfold Repeats at h
  unfold IsStored
  rcases run : outcome search ⟨e, request⟩ with ⟨f | stopped, ⟨e', k⟩⟩
  · rw [run] at h
    rw [outcome_collected_of_error run] at grown ⊢
    exact ⟨(h ⟨closed, by simp [new]⟩ grown).1.1, nofun⟩
  · rw [run] at h kept
    rw [outcome_collected run] at grown ⊢
    obtain ⟨⟨closed', taken⟩, again⟩ := h ⟨closed, by simp [new]⟩ grown
    obtain ⟨_, e₂', run', grown', rfl⟩ := again _ _ rfl
    -- where access is not checked, the store does not count for what is handed out
    have shown : ∀ s, outcome (Collection.requested s) k = (.ok k.bindings, k) := fun s =>
      Collection.outcome_requested_of_unchecked ((congrArg Flags.checkVisibility kept).trans unchecked)
    refine ⟨closed', fun ds _ answered => ?_⟩
    rw [shown] at answered
    cases answered
    refine ⟨k.bindings, e₂', ?_, grown', rfl, taken⟩
    show outcome (collected request search) e₂ = _
    rw [outcome_collected run', shown]
    rfl

end Collecting

/-! ## What a name is accessed through -/

/-- Both names stand alone, or are accessed through types that stand for the same, if through any. -/
inductive AlikeQualifiers (n : Option Node) :
    Qualifier → Qualifier → Environment → Environment → Prop
  | absent {e e₂ : Environment} : n.bind Node.qualifierNode = none →
      AlikeQualifiers n .absent .absent e e₂
  | unknown {e e₂ : Environment} : AlikeQualifiers n .unknown .unknown e e₂
  | type {e e₂ : Environment} {t t' : TypeId} : Alike e e₂ t t' →
      AlikeQualifiers n (.type t) (.type t') e e₂

section Names

variable (repeatable : ∀ n, IsRepeatable (typeOf n))

include repeatable

theorem isRepeatable_typeOf? (n : Option Node) : IsRepeatable (typeOf? typeOf n) := by
  cases n with
  | none => exact .none
  | some n => exact repeatable n

theorem growing_qualifierOf (n : Option Node) : Growing (qualifierOf typeOf n) :=
  .of_keeps fun e => keeps_qualifierOf (keeps_typing repeatable e) n

theorem repeats_qualifierOf (n : Option Node) :
    Repeats e e₂ (qualifierOf typeOf n) (qualifierOf typeOf n) (AlikeQualifiers n) := by
  unfold qualifierOf
  cases through : n.bind Node.qualifierNode with
  | none => exact .pure fun _ => .absent through
  | some target =>
    have := (repeatable target).growing
    refine ((repeatable target).repeats e e₂).bind ?_ fun o o' _ _ _ _ _ alike => ?_
    · rintro (_ | t) <;> infer_instance
    · cases alike with
      | none => exact .pure fun _ => .unknown
      | some alike => exact .pure fun _ => .type alike

theorem growing_labelEnum (n : Node) : Growing (labelEnum typeOf n) :=
  .of_keeps fun e => keeps_labelEnum (keeps_typing repeatable e) n

theorem repeats_labelEnum (n : Node) : Repeats e e₂ (labelEnum typeOf n) (labelEnum typeOf n)
    fun o o' e _ => o' = o ∧ ∀ t ∈ o, e.store.Has (.type t) := by
  have condition := isRepeatable_typeOf? repeatable n.switchCondition
  have := condition.growing
  refine .ite (fun _ => ?_) fun _ => .pure fun _ => ⟨rfl, nofun⟩
  refine (condition.repeats e e₂).bind (fun _ => inferInstance) ?_
  rintro o o' e₁ e₃ - - (agrees : e₁.Agrees e₃) alike
  refine .read_bind (.pure fun _ => ?_)
  cases alike with
  | none => exact ⟨rfl, nofun⟩
  | @some t t' alike =>
    have isEnum := isEnum_of_alike agrees alike
    cases alike with
    | same has =>
      refine ⟨by simp only [Option.filter_some, isEnum], fun u member => ?_⟩
      obtain ⟨heq, -⟩ := Option.filter_eq_some_iff.1 member
      exact Option.some.inj heq ▸ has
    | wildcard one other =>
      -- the wildcard of the second run is another one, but neither is an enum
      have plain : e₁.store.isEnum t = false := isEnum_of_isWildcard one
      simp [Option.filter_some, plain, isEnum_of_isWildcard other]

/-! ## What a name refers to -/

theorem growing_collectAtName (n : Node) (around : TypeId) (flags : Flags) :
    Growing (collectAtName (σ := Collection) typeOf n around flags) :=
  .of_within fun e => keeps_collectAtName (keeps_typing repeatable e) keeps_true n around flags

theorem repeats_collectAtName (n : Node) {around : TypeId} (flags : Flags)
    (has : st.environment.store.Has (.type around)) :
    Repeats st e₂ (collectAtName typeOf n around flags) (collectAtName typeOf n around flags)
      SameAnswer := by
  have := growing_collectAtName repeatable n around flags
  have := growing_collectLocal repeatable n
  have := growing_collectTypes repeatable flags around
  refine .of_agrees fun (agrees : st.environment.Agrees e₂) => .get_bind ?_
  show Repeats st e₂ _ (collectLocal typeOf n (e₂.context.unit.charStart n) flags >>= _) SameAnswer
  rw [agrees.grown.context]
  refine (repeats_collectLocal repeatable n _ flags).bind (fun _ => inferInstance) ?_
  rintro stopped _ st₁ e₃ grown - - rfl
  exact .ite (fun _ => .pure fun _ => rfl) fun _ =>
    repeats_collectTypes repeatable flags (grown.store.has has)

theorem growing_declarationsAtName (n : Node) (flags : Flags) :
    Growing (declarationsAtName typeOf n flags) :=
  .of_keeps fun e => keeps_declarationsAtName (keeps_typing repeatable e) n flags

theorem growing_aroundName (n : Node) (flags : Flags) (o : Option TypeId) :
    Growing (match o with
      | none => pure []
      | some around =>
        collected (.new (some around) flags) (collectAtName typeOf n around flags)) := by
  cases o with
  | none => exact inferInstanceAs (Growing (pure []))
  | some around => exact growing_collected (growing_collectAtName repeatable n around flags)

/-- Without a check of access, the same declarations are available at a name that stands alone. -/
theorem repeats_declarationsAtName {n : Node} (alone : n.qualifierNode = none) {flags : Flags}
    (unchecked : flags.checkVisibility = false) :
    Repeats e e₂ (declarationsAtName typeOf n flags) (declarationsAtName typeOf n flags)
      SameBindings := by
  have := growing_labelEnum repeatable n
  have := growing_aroundName repeatable n flags
  have absent : qualifierOf typeOf (some n) = pure .absent := by
    rw [qualifierOf, Option.bind_some, alone]
  simp only [declarationsAtName, absent, pure_bind]
  refine (repeats_labelEnum repeatable n).bind (fun label => ?_) ?_
  · cases label with
    | some t => infer_instance
    | none => exact Growing.bind get _
  rintro _ label e₁ e₃ - - (agrees : e₁.Agrees e₃) ⟨rfl, known⟩
  cases label with
  | some t =>
    refine .read_bind ?_
    rw [enumConstants_eq agrees (known t rfl)]
    exact .pure fun _ => ⟨rfl, by simp⟩
  | none =>
    refine .get_bind ?_
    simp only [exchange_self, agrees.grown.enclosingType]
    cases enclosing : e₁.enclosingType n with
    | none => exact .pure fun _ => ⟨rfl, by simp⟩
    | some around =>
      have has : e₁.store.Has (.type around) :=
        has_of_declares agrees.closed (declares_enclosingType enclosing)
      have settings := keeps_collectAtName (keeps_typing repeatable e₁)
        (keeps_settings (some around) flags) n around flags
      have kept := (settings ⟨e₁, .new (some around) flags⟩ ⟨.refl e₁, rfl, rfl⟩).2.2
      exact repeats_collected rfl unchecked kept (repeats_collectAtName repeatable n flags has)

theorem growing_resolveMethod (invocation : Node) : Growing (resolveMethod typeOf invocation) :=
  .of_keeps fun e => keeps_resolveMethod (keeps_typing repeatable e) invocation

omit repeatable in
theorem isLasting_isCallable (name : String) (arity : Nat) : IsLasting (isCallable name arity) := by
  intro s s' grows
  funext b
  simp only [isCallable, grows.method_eq]

omit repeatable in
theorem isLasting_isVariableNamed (name : String) : IsLasting (isVariableNamed name) := by
  intro s s' grows
  funext b
  cases b with
  | «variable» v => simp only [isVariableNamed, Store.name, grows.variable_eq]
  | type t => rfl
  | method m => rfl

/-- A call is resolved to the same method. -/
theorem repeats_resolveMethod (invocation : Node) :
    Repeats e e₂ (resolveMethod typeOf invocation) (resolveMethod typeOf invocation) SameAnswer := by
  have := growing_resolveMethod repeatable invocation
  have := growing_qualifierOf repeatable (invocation.childByField .name)
  refine .of_agrees fun (agrees : e.Agrees e₂) => .read_bind ?_
  rw [agrees.grown.document]
  have lasting := isLasting_isCallable (e.document.textOf? (invocation.childByField .name))
    (((invocation.childByField .arguments).map (·.namedChildren.length)).getD 0)
  refine (repeats_qualifierOf repeatable _).bind (fun q => ?_) ?_
  · cases q <;> infer_instance
  · rintro q q' e₁ e₃ - - (agrees : e₁.Agrees e₃) alike
    cases alike with
    | unknown => exact .pure fun _ => rfl
    | type alike =>
      refine (repeats_findMember_of_alike lasting alike).bind_pure ?_
      rintro found _ _ _ ⟨rfl, -⟩
      rfl
    | absent _ =>
      refine .get_bind ?_
      have size := agrees.grown.store.size
      simp only [exchange_self, agrees.grown.enclosingType]
      have has : ∀ u ∈ e₁.enclosingType invocation, e₁.store.Has (.type u) :=
        fun u around => has_of_declares agrees.closed (declares_enclosingType around)
      have outwards : Repeats e₁ e₃ _ _ _ :=
        repeats_findMemberOutwards lasting (Nat.succ_le_succ size) has
      refine outwards.bind_pure ?_
      rintro found _ _ _ ⟨rfl, -⟩
      rfl

omit repeatable in
theorem name_eq_of_agrees (agrees : e.Agrees e₂) {b : BindingId}
    (has : ∀ u, b = .type u → e.store.Has (.type u)) : e₂.store.name b = e.store.name b := by
  cases b with
  | type t => exact congrArg TypeBinding.name (agrees.type_eq (has t rfl))
  | «variable» v => exact congrArg VariableBinding.name (agrees.grown.store.variable_eq v)
  | method m => exact congrArg MethodBinding.name (agrees.grown.store.method_eq m)

theorem growing_resolve (n : Node) : Growing (resolve typeOf n) :=
  .of_keeps fun e => keeps_resolve (keeps_typing repeatable e) n

omit repeatable in
theorem repeats_resolveAsType (n : Node) :
    Repeats e e₂ (resolveAsType n) (resolveAsType n) SameBinding := by
  have : Growing (resolveAsType n) := .of_keeps fun _ => keeps_resolveAsType n
  refine .of_agrees fun (agrees : e.Agrees e₂) => .read_bind ?_
  rw [agrees.grown.document]
  have : Growing (resolveTypeName (e.document.textOf n) n) := growing_resolveTypeNameIn _ _
  have named : Repeats e e₂ (resolveTypeName (e.document.textOf n) n) _ SameType :=
    repeats_resolveTypeNameIn _ _
  refine named.bind (fun _ => inferInstance) ?_
  rintro _ t e₁ e₃ - - (agrees : e₁.Agrees e₃) ⟨rfl, has⟩
  refine .read_bind ?_
  rw [agrees.type_eq has]
  refine .ite (fun _ => .pure fun _ => .none) fun _ => .pure fun _ => ⟨rfl, ?_⟩
  rintro _ ⟨⟩
  exact has

/-- The first of the available declarations that has the name, or else the type that it stands for. -/
def firstNamed (n : Node) (name : String) (available : List BindingId) :
    EnvironmentM (Option BindingId) := do
  let s ← read Environment.store
  match available.find? fun b => s.name b == name with
  | some b => return some b
  | none => resolveAsType n

omit repeatable in
theorem growing_firstNamed (n : Node) (name : String) (available : List BindingId) :
    Growing (firstNamed n name available) := by
  refine .of_keeps fun _ => (keeps_read _).bind fun s => ?_
  split
  · exact .pure _
  · exact keeps_resolveAsType n

omit repeatable in
theorem repeats_firstNamed (n : Node) (name : String) {available : List BindingId}
    (has : ∀ u, .type u ∈ available → e.store.Has (.type u)) :
    Repeats e e₂ (firstNamed n name available) (firstNamed n name available) SameBinding := by
  have := growing_firstNamed n name available
  refine .of_agrees fun (agrees : e.Agrees e₂) => .read_bind ?_
  have same : (available.find? fun b => e₂.store.name b == name) =
      available.find? fun b => e.store.name b == name := by
    refine List.find?_congr fun b member => ?_
    rw [name_eq_of_agrees agrees]
    rintro u rfl
    exact has u member
  rw [same]
  split
  · next b found =>
    refine .pure fun _ => ⟨rfl, ?_⟩
    rintro u ⟨⟩
    exact has u (List.mem_of_find?_eq_some found)
  · exact repeats_resolveAsType n

/-- A name is resolved to the same binding. -/
theorem repeats_resolve (n : Node) : Repeats e e₂ (resolve typeOf n) (resolve typeOf n) SameBinding := by
  have := growing_resolve repeatable n
  refine .of_agrees fun (agrees : e.Agrees e₂) => .get_bind ?_
  simp only [exchange_self, agrees.grown.bindingOf]
  cases declared : e.bindingOf n with
  | some b =>
    refine .pure fun _ => ⟨rfl, ?_⟩
    rintro u ⟨⟩
    obtain ⟨key, filed⟩ := exists_mem_of_bindingOf declared
    exact agrees.closed.declared _ (List.mem_map_of_mem filed)
  | none =>
    refine .read_bind ?_
    rw [agrees.grown.document]
    split
    · next invocation _ =>
      have := growing_resolveMethod repeatable invocation
      refine (repeats_resolveMethod repeatable invocation).bind_pure ?_
      rintro m _ _ _ rfl
      exact ⟨rfl, by simp⟩
    · have := growing_qualifierOf repeatable (some n)
      have := growing_declarationsAtName repeatable n .onlyVariables
      have chosen := growing_firstNamed n (e.document.textOf n)
      refine (repeats_qualifierOf repeatable (some n)).bind (fun q => ?_) ?_
      · cases q with
        | unknown => infer_instance
        | type t => infer_instance
        | absent =>
          exact Growing.bind (declarationsAtName typeOf n .onlyVariables)
            (firstNamed n (e.document.textOf n))
      · rintro q q' e₁ e₃ - - - alike
        cases alike with
        | unknown => exact .pure fun _ => .none
        | type alike => exact repeats_findMember_of_alike (isLasting_isVariableNamed _) alike
        | absent alone =>
          refine (repeats_declarationsAtName repeatable alone rfl).bind chosen ?_
          rintro _ available e₄ e₅ - - - ⟨rfl, has⟩
          exact repeats_firstNamed n (e.document.textOf n) has

/-! ## Types of expressions -/

theorem isRepeatable_typeOfName (n : Option Node) : IsRepeatable (typeOfName typeOf n) where
  growing := .of_keeps fun e => keeps_typeOfName (keeps_typing repeatable e) n
  repeats e e₂ := by
    have growing : Growing (resolve? typeOf n) := by
      cases n with
      | none => exact inferInstanceAs (Growing (pure none))
      | some n => exact growing_resolve repeatable n
    have again : Repeats e e₂ (resolve? typeOf n) (resolve? typeOf n) SameBinding := by
      cases n with
      | none => exact .pure fun _ => .none
      | some n => exact repeats_resolve repeatable n
    refine again.bind (fun b => ?_) ?_
    · rcases b with _ | (_ | _ | _) <;> infer_instance
    · rintro _ b e₁ e₃ - - (agrees : e₁.Agrees e₃) ⟨rfl, has⟩
      rcases b with _ | (t | v | m)
      · exact .pure fun _ => .none
      · exact .pure fun _ => .some (.same (has t rfl))
      · refine .read_bind ?_
        rw [agrees.grown.store.variable_eq]
        exact .pure fun _ => alikeTypes_self fun t type =>
          agrees.closed.store.vars v t (by simp [VariableBinding.links, Option.mem_def.1 type])
      · exact .pure fun _ => .none

/-- The type of an element, if the type is an array. -/
def accessed (t : TypeId) : EnvironmentM (Option TypeId) := do
  let b := (← read Environment.store).type t
  if b.isArray then arrayOf b.elementType (b.dimensions - 1) else return none

omit repeatable in
theorem growing_accessed (t : TypeId) : Growing (accessed t) := by
  unfold accessed
  infer_instance

omit repeatable in
/-- The elements of types that stand for the same have types that do so too. -/
theorem repeats_accessed {t t' : TypeId} (alike : Alike e e₂ t t') :
    Repeats e e₂ (accessed t) (accessed t') AlikeTypes := by
  have := growing_accessed t
  refine .of_agrees fun (agrees : e.Agrees e₂) => .read_bind ?_
  cases alike with
  | same has =>
    rw [agrees.type_eq has]
    refine .ite (fun _ => repeats_arrayOf ?_ _) fun _ => .pure fun _ => .none
    exact alikeTypes_self fun u element => agrees.closed.store.types t u
      (by simp [TypeBinding.links, Option.mem_def.1 element])
  | wildcard one other =>
    have plain : ¬ (e.store.type t).isArray = true := one.not_isArray
    rw [if_neg plain, if_neg other.not_isArray]
    exact .pure fun _ => .none

theorem isRepeatable_expressionStep (n : Node) : IsRepeatable (expressionStep typeOf n) where
  growing := .of_keeps fun e => keeps_expressionStep (keeps_typing repeatable e) n
  repeats e e₂ := by
    have : Growing (expressionStep typeOf n) :=
      .of_keeps fun e => keeps_expressionStep (keeps_typing repeatable e) n
    refine .of_agrees fun (agrees : e.Agrees e₂) => ?_
    unfold expressionStep
    split
    -- between parentheses, then this object and the one above it
    · exact (isRepeatable_typeOf? repeatable _).repeats e e₂
    · refine .get_bind ?_
      simp only [exchange_self, agrees.grown.enclosingType]
      exact .pure fun _ => alikeTypes_self fun t around =>
        has_of_declares agrees.closed (declares_enclosingType around)
    · refine .get_bind ?_
      simp only [exchange_self, agrees.grown.enclosingType]
      cases around : e.enclosingType n with
      | none => exact .pure fun _ => .none
      | some t =>
        have has := has_of_declares agrees.closed (declares_enclosingType around)
        simp only [Option.bind_some, agrees.type_eq has]
        exact .pure fun _ => alikeTypes_self fun u above =>
          agrees.closed.store.types t u (by simp [TypeBinding.links, Option.mem_def.1 above])
    -- names and calls
    · exact (isRepeatable_typeOfName repeatable _).repeats e e₂
    · exact (isRepeatable_typeOfName repeatable _).repeats e e₂
    · have := growing_resolveMethod repeatable n
      refine (repeats_resolveMethod repeatable n).bind (fun m => ?_) ?_
      · cases m <;> infer_instance
      · rintro _ m e₁ e₃ - - (agrees : e₁.Agrees e₃) rfl
        cases m with
        | none => exact .pure fun _ => .none
        | some m =>
          refine .read_bind ?_
          rw [agrees.grown.store.method_eq]
          exact .pure fun _ => alikeTypes_self fun t type =>
            agrees.closed.store.methods m t (by simp [MethodBinding.links, Option.mem_def.1 type])
    -- what is created or cast, and an element of an array
    · exact (isRepeatable_resolveType? _ _).repeats e e₂
    · exact (isRepeatable_resolveType? _ _).repeats e e₂
    · refine ((isRepeatable_resolveType? _ n).repeats e e₂).bind (fun _ => inferInstance) ?_
      rintro o o' e₁ e₃ - - (agrees : e₁.Agrees e₃) alike
      refine .read_bind ?_
      rw [agrees.grown.document]
      exact repeats_arrayOf alike _
    · have array := isRepeatable_typeOf? repeatable (n.childByField .array)
      have := array.growing
      refine (array.repeats e e₂).bind (fun o => ?_) ?_
      · cases o <;> infer_instance
      · rintro o o' e₁ e₃ - - - alike
        cases alike with
        | none => exact .pure fun _ => .none
        | some alike => exact repeats_accessed alike
    -- a literal, of a class or of a primitive type
    · split
      · exact repeats_some inferInstance (repeats_recoveredType _)
      · exact repeats_some inferInstance (repeats_primitiveType _)
      · exact .pure fun _ => .none

omit repeatable in
theorem isRepeatable_expressionTypeWith (fuel : Nat) (n : Node) :
    IsRepeatable (expressionTypeWith fuel n) := by
  induction fuel generalizing n with
  | zero => exact ⟨inferInstanceAs (Growing (throw _)), fun _ _ => .throw⟩
  | succ fuel ih => exact isRepeatable_expressionStep ih n

omit repeatable in
theorem isRepeatable_expressionType (n : Node) : IsRepeatable (expressionType n) where
  growing := .of_keeps fun _ => keeps_expressionType n
  repeats e e₂ := by
    have : Growing (expressionType n) := .of_keeps fun _ => keeps_expressionType n
    refine .of_agrees fun (agrees : e.Agrees e₂) => .read_bind ?_
    rw [agrees.grown.document]
    exact (isRepeatable_expressionTypeWith _ n).repeats e e₂

end Names

end Scope

end JavaScope
