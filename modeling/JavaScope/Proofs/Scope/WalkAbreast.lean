import JavaScope.Proofs.Environment.Kinds
import JavaScope.Proofs.Scope.Abreast
import JavaScope.Proofs.Scope.Levels

/-!
# Local walks for several kinds and for one

The walk over local declarations that asks for several kinds offers, of each kind, what the walk that
asks for this kind alone offers, in the same order. The flags decide which way the first walk takes
at a local type and whether it enters the parameters of a lambda expression, but no declaration of
another kind is on the way that the second walk does not take.
-/

namespace JavaScope

/-- Nothing in the parameter list of a lambda expression declares a type or a type parameter. -/
def Tree.HasPlainLambdas (t : Tree) : Prop :=
  ∀ n ∈ t.root.preorder, n.kind = .lambdaExpression → ∀ list ∈ n.childrenByField .parameters,
    ∀ m ∈ list.preorder, m.kind.declaresType = false

instance (t : Tree) : Decidable t.HasPlainLambdas :=
  inferInstanceAs (Decidable (∀ n ∈ t.root.preorder, n.kind = .lambdaExpression →
    ∀ list ∈ n.childrenByField .parameters, ∀ m ∈ list.preorder, m.kind.declaresType = false))

/-- The same position, asked for one kind alone. -/
def ScopePoint.only (p : ScopePoint) (k : BindingKind) : ScopePoint :=
  { p with flags := p.flags.only k }

namespace LocalWalk

/-! ## Walks that are asked for nothing -/

section Idle

variable {σ : Type} [Request σ] (typeOf : Typing) {p : ScopePoint}

omit [Request σ] in
theorem composes_pure : Composes fun search : SearchM σ Bool => search = pure false where
  pure := rfl
  orElse := by
    rintro _ _ rfl rfl
    rfl

/-- A walk that is asked neither for variables nor for a type that is declared on its way does
nothing. -/
theorem run_eq_pure (vars : p.flags.vars = false) (n : Node)
    (types : p.flags.types = true → ∀ m ∈ n.preorder, m.kind.declaresType = false) :
    run (σ := σ) typeOf p n = pure false := by
  induction n using Node.induction_below with
  | h n ih =>
    have below : ∀ c ∈ n.children, ∀ m ∈ c.preorder, run (σ := σ) typeOf p m = pure false :=
      fun c hc m hm => ih c hc m hm fun asked m' hm' =>
        types asked m' (Node.mem_preorder_of_child hc (Node.mem_preorder_trans hm hm'))
    by_cases named : n.isNamed = true
    · rw [run_eq_level typeOf p n named]
      apply composes_pure.level
      · exact fun c hc => below c hc c (Node.mem_preorder_self c)
      · exact fun c hc _ d hd => below c hc d (Node.mem_preorder_of_child hd (Node.mem_preorder_self d))
      · intro asked _
        simp only [ScopePoint.asksFor, vars, Bool.false_and, Bool.false_or, Bool.and_eq_true] at asked
        rw [types asked.1 n (Node.mem_preorder_self n)] at asked
        cases asked.2
      -- what is left asks for variables
      · intro _ asked
        cases vars.symm.trans asked
      · intro _ asked
        cases vars.symm.trans asked
    · exact run_of_not_named typeOf p n (by simpa using named)

end Idle

/-! ## Walks side by side -/

section Walk

variable {c : Context} {e₀ : Environment} {typeOf : Typing} {p : ScopePoint} {k : BindingKind}

/-- The walk at a node that asks for several kinds, and the one that asks for one of them. -/
abbrev WalksAbreast (e₀ : Environment) (typeOf : Typing) (p : ScopePoint) (k : BindingKind)
    (n : Node) : Prop :=
  Parallel e₀ k (k = .variable) (run typeOf p n) (run typeOf (p.only k) n)

/-- The two walks as walks that are made at once. -/
def flagsAbreast (p : ScopePoint) (k : BindingKind) : Bool → Flags
  | false => p.flags
  | true => p.flags.only k

theorem composesTogether_parallel (e₀ : Environment) (k : BindingKind) (tied : Prop) :
    ComposesTogether fun a : Bool → SearchM Collection Bool => Parallel e₀ k tied (a false) (a true) where
  pure := .pure
  orElse := .orElse

/-- Searches that are nothing to the second walk. -/
theorem composes_parallel_left (e₀ : Environment) (k : BindingKind) (tied : Prop) :
    Composes fun search => Parallel e₀ k tied search (pure false) where
  pure := .pure
  orElse h h' := h.orElse h'

variable (closed : e₀.Closed) (declares : p.bindingOf = e₀.bindingOf) (asks : p.flags.asks k = true)

section Offers

include closed declares

theorem has_of_bindingOf {n : Node} {t : TypeId} (h : p.bindingOf n = some (.type t)) :
    e₀.store.Has (.type t) := by
  rw [declares] at h
  obtain ⟨key, filed⟩ := Environment.exists_mem_of_bindingOf h
  exact closed.declared _ (List.mem_map_of_mem filed)

include asks

/-- What a node declares is offered by both walks or, if it is of another kind, by the first. -/
theorem parallel_offerDeclared {n : Node} (k' : BindingKind)
    (kind : ∀ b, e₀.bindingOf n = some b → b.kind = k') (reached : Bool) :
    Parallel e₀ k (k = .variable) (offerDeclared p n (p.flags.asks k' && reached))
      (offerDeclared (p.only k) n ((p.only k).flags.asks k' && reached)) := by
  have stored : ∀ t, p.bindingOf n = some (.type t) → e₀.store.Has (.type t) :=
    fun t => has_of_bindingOf closed declares
  have kind' : ∀ b ∈ p.bindingOf n, b.kind = k' := fun b hb => kind b (by rw [← declares]; exact hb)
  by_cases same : k = k'
  · subst same
    have only : (p.only k).flags.asks k = true := by simp [ScopePoint.only]
    simp only [offerDeclared, asks, only, Bool.true_and]
    exact .ite (fun _ => .offer closed kind' stored) fun _ => .pure
  · have only : (p.only k).flags.asks k' = false := by simpa [ScopePoint.only] using same
    simp only [offerDeclared, only, Bool.false_and, Bool.false_eq_true, if_false]
    exact .ite_left (fun _ => .offer_left (fun b hb => (kind' b hb).trans_ne (Ne.symm same)) stored)
      fun _ => .pure

end Offers

/-! ### Constants of a switch -/

section Constants

variable (keeps : ∀ n, Keeps e₀.Extends (typeOf n))

include closed

theorem parallel_offerVariables (vs : List VariableId) :
    Parallel e₀ k (k = .variable) (SearchM.offerAll (vs.map .variable))
      (SearchM.offerAll (if k = .variable then vs.map .variable else [])) := by
  have offered : Parallel e₀ k (k = .variable) (SearchM.offerAll (vs.map .variable))
      (SearchM.offerAll ((vs.map BindingId.variable).filter (·.kind == k))) :=
    .offerAll closed fun u hu => by simp at hu
  rwa [filter_kind (kind_of_mem_map (f := .variable) (fun _ => rfl) vs)] at offered

include keeps

/-- Two searches for variables offer the same constants. -/
theorem parallel_labelConstants (ties : k = .variable) (n : Node) :
    Parallel e₀ k (k = .variable) (labelConstants typeOf n) (labelConstants typeOf n) := by
  unfold labelConstants
  split
  · exact .pure
  · split
    · exact .pure
    · refine .lift_bind ties (keeps _) fun t => ?_
      cases t with
      | none => exact .pure
      | some t =>
        refine .read_bind fun e e' _ _ same => ?_
        rw [same ties]
        refine .ite (fun _ => ?_) fun _ => .pure
        have offered := parallel_offerVariables (k := k) closed (e.store.enumConstants t)
        rwa [if_pos ties] at offered

/-- To a search for another kind the constants are nothing. -/
theorem parallel_labelConstants_left (free : k ≠ .variable) (n : Node) :
    Parallel e₀ k (k = .variable) (labelConstants typeOf n) (pure false) := by
  unfold labelConstants
  split
  · exact .pure
  · split
    · exact .pure
    · refine .lift_bind_left free (keeps _) fun t => ?_
      cases t with
      | none => exact .pure
      | some t =>
        refine .read_bind_left fun e _ => .ite_left (fun _ => ?_) fun _ => .pure
        have offered := parallel_offerVariables (k := k) closed (e.store.enumConstants t)
        rwa [if_neg free] at offered

include asks

/-- At a label of a switch both walks offer the constants if they ask for variables, and otherwise
the first one only. -/
theorem parallel_switchLabel (n : Node) :
    Parallel e₀ k (k = .variable)
      (if p.flags.vars && p.isInside n then labelConstants typeOf n else pure false)
      (if (p.only k).flags.vars && (p.only k).isInside n then labelConstants typeOf n
        else pure false) := by
  by_cases ties : k = .variable
  · have vars : p.flags.vars = true := by
      rw [ties] at asks
      exact asks
    have only : (p.only k).flags.vars = true := by simp [ScopePoint.only, Flags.only, ties]
    simp only [vars, only, Bool.true_and]
    exact .ite (fun _ => parallel_labelConstants closed keeps ties n) fun _ => .pure
  · have only : (p.only k).flags.vars = false := by simpa [ScopePoint.only, Flags.only] using ties
    simp only [only, Bool.false_and, Bool.false_eq_true, if_false]
    exact .ite_left (fun _ => parallel_labelConstants_left closed keeps ties n) fun _ => .pure

end Constants

/-! ### Parameters of a lambda expression -/

section Lambda

variable (built : Environment.build c = .ok e₀) (shape : c.document.tree.HasLeafNames)

include built shape declares

/-- A name alone among the parameters of a lambda expression, or in place of their list, leads to
nothing but a variable. -/
theorem kind_of_lambdaName {n list : Node} (hn : n ∈ c.document.root.preorder)
    (isLambda : n.kind = .lambdaExpression) (found : part n .parameters = some list) :
    ∀ d, d = list ∨ d ∈ list.namedChildren → d.kind = .identifier →
      ∀ b ∈ p.bindingOf d, b.kind = .variable := by
  obtain ⟨hlist, field⟩ := part_field found
  obtain ⟨isList, -⟩ :=
    (shape.parts n hn).parameters list (List.mem_filter.2 ⟨hlist, by simp [field]⟩)
  -- a name here is no part of a declaration that it could lead to
  have named : ∀ up ∈ c.document.root.preorder, ¬ up.DeclaresItself → ∀ m ∈ up.children,
      m.kind = .identifier → ∀ b ∈ p.bindingOf m, b.kind = .variable := by
    intro up hup inner m hm isName b hb
    rw [declares] at hb
    refine Environment.kind_of_identifier built shape (Node.mem_preorder_of_mem_children hup hm) isName
      (fun up' above => ?_) hb
    rw [Node.parent_of_mem_children hm] at above
    cases above
    exact inner
  have lambdaInner : ¬ n.DeclaresItself := by
    simp [Node.DeclaresItself, Node.isAnonymousBody, isLambda, Kind.isTypeDeclaration,
      Kind.isMethodDeclaration]
  have listInner : ¬ list.DeclaresItself := by
    simp only [List.mem_cons, List.not_mem_nil, or_false] at isList
    rcases isList with kind | kind | kind <;>
      simp [Node.DeclaresItself, Node.isAnonymousBody, kind, Kind.isTypeDeclaration,
        Kind.isMethodDeclaration]
  rintro d (rfl | hd) isName
  · exact named n hn lambdaInner d hlist isName
  · exact named list (Node.mem_preorder_of_mem_children hn hlist) listInner d
      (List.mem_filter.1 hd).1 isName

include closed asks

/-- The names alone among the parameters of a lambda expression are offered by both walks if they
ask for variables, and otherwise by the first one only. The second one passes by the other parameters
because nothing there is of a kind that it asks for. -/
theorem parallel_lambdaParameters {n list : Node} (hn : n ∈ c.document.root.preorder)
    (isLambda : n.kind = .lambdaExpression) (found : part n .parameters = some list)
    (walks : ∀ m ∈ list.children, WalksAbreast e₀ typeOf p k m)
    (idle : k ≠ .variable → ∀ m ∈ list.children,
      run (σ := Collection) typeOf (p.only k) m = pure false) :
    Parallel e₀ k (k = .variable)
      (if p.flags.vars then lambdaParameters p (list, spread typeOf p list) else pure false)
      (if (p.only k).flags.vars then
        lambdaParameters (p.only k) (list, spread typeOf (p.only k) list) else pure false) := by
  have stored : ∀ m t, p.bindingOf m = some (.type t) → e₀.store.Has (.type t) :=
    fun _ _ => has_of_bindingOf closed declares
  have kinds := kind_of_lambdaName declares built shape hn isLambda found
  by_cases ties : k = .variable
  · have vars : p.flags.vars = true := by
      rw [ties] at asks
      exact asks
    have only : (p.only k).flags.vars = true := by simp [ScopePoint.only, Flags.only, ties]
    simp only [vars, only, if_true]
    apply (composesTogether_parallel e₀ k _).lambdaParameters p (flagsAbreast p k) _ walks
    intro d here isName
    exact .offer closed (fun b hb => (kinds d here isName b hb).trans ties.symm) (stored d)
  · have only : (p.only k).flags.vars = false := by simpa [ScopePoint.only, Flags.only] using ties
    simp only [only, Bool.false_eq_true, if_false]
    refine .ite_left (fun _ => ?_) fun _ => .pure
    apply (composes_parallel_left e₀ k _).lambdaParameters
    · intro d here isName
      exact .offer_left (fun b hb => (kinds d here isName b hb).trans_ne (Ne.symm ties)) (stored d)
    · intro m hm
      have walk := walks m hm
      rwa [WalksAbreast, idle ties m hm] at walk

end Lambda

/-! ### A whole walk -/

section Run

variable (built : Environment.build c = .ok e₀) (shape : c.document.tree.HasLeafNames)

include built shape closed declares asks

/-- A local type that is offered to the first walk is not searched by the second one either: it ends
before the position. -/
theorem parallel_typeDeclaration {n : Node} (hn : n ∈ c.document.root.preorder)
    (isType : n.kind.declaresType = true) (walks : ∀ m ∈ n.children, WalksAbreast e₀ typeOf p k m) :
    Parallel e₀ k (k = .variable)
      (if p.flags.types && p.endsBefore n then SearchM.offer (p.bindingOf n)
        else if p.isInside n then n.children.anyM (run typeOf p) else pure false)
      (if (p.only k).flags.types && (p.only k).endsBefore n then SearchM.offer ((p.only k).bindingOf n)
        else if (p.only k).isInside n then n.children.anyM (run typeOf (p.only k))
        else pure false) := by
  have kind : ∀ b ∈ p.bindingOf n, b.kind = .type := by
    intro b hb
    rw [declares] at hb
    exact Environment.kind_of_declaresType built shape hn isType hb
  have stored : ∀ t, p.bindingOf n = some (.type t) → e₀.store.Has (.type t) :=
    fun t => has_of_bindingOf closed declares
  have rest : Parallel e₀ k (k = .variable)
      (if p.isInside n then n.children.anyM (run typeOf p) else pure false)
      (if (p.only k).isInside n then n.children.anyM (run typeOf (p.only k)) else pure false) :=
    .ite (fun _ => .anyM walks) fun _ => .pure
  by_cases same : k = .type
  · have types : p.flags.types = true := by
      rw [same] at asks
      exact asks
    have only : (p.only k).flags.types = true := by simp [ScopePoint.only, Flags.only, same]
    simp only [types, only, Bool.true_and]
    exact .ite (fun _ => .offer closed (fun b hb => (kind b hb).trans same.symm) stored) fun _ => rest
  · have only : (p.only k).flags.types = false := by simpa [ScopePoint.only, Flags.only] using same
    simp only [only, Bool.false_and, Bool.false_eq_true, if_false]
    refine .ite_left (fun ends => ?_) fun _ => rest
    have outside : (p.only k).isInside n = false :=
      ScopePoint.isInside_of_endsBefore (p := p) (Bool.and_eq_true_iff.1 ends).2
    rw [outside]
    exact .offer_left (fun b hb => (kind b hb).trans_ne (Ne.symm same)) stored

variable (keeps : ∀ n, Keeps e₀.Extends (typeOf n))

include keeps

/-- One level of a walk goes side by side if the walks two levels below do. -/
theorem parallel_level {n : Node} (hn : n ∈ c.document.root.preorder)
    (h : ∀ m ∈ n.children, WalksAbreast e₀ typeOf p k m)
    (h' : ∀ m ∈ n.children, ∀ d ∈ m.children, WalksAbreast e₀ typeOf p k d)
    (idle : k ≠ .variable → n.kind = .lambdaExpression → ∀ list ∈ part n .parameters,
      ∀ m ∈ list.children, run (σ := Collection) typeOf (p.only k) m = pure false) :
    Parallel e₀ k (k = .variable) (level typeOf p n) (level typeOf (p.only k) n) := by
  have levels : LevelsFrom (fun a : Bool → SearchM Collection Bool =>
      Parallel e₀ k (k = .variable) (a false) (a true)) typeOf p (flagsAbreast p k) n :=
    { parts := h
      inner := fun m hm _ => h' m hm
      codeVariable := by
        intro isVariable reached _
        apply parallel_offerDeclared closed declares asks .variable
        intro b leads
        obtain ⟨-, -, -, kind⟩ :=
          Environment.declaredAt_of_isCodeVariable built shape hn isVariable leads
        exact kind
      typeParameter := by
        intro kind
        apply parallel_offerDeclared closed declares asks .type
        exact fun b => Environment.kind_of_declaresType built shape hn (by rw [kind]; rfl)
      typeDeclaration := fun isType =>
        parallel_typeDeclaration closed declares asks built shape hn (by simp [isType, Kind.declaresType]) h
      label := fun _ => parallel_switchLabel closed asks keeps n
      parameters := fun kind _ list found =>
        parallel_lambdaParameters closed declares asks built shape hn kind found
          (h' list (part_field found).1) fun free => idle free kind list found }
  exact levels.level (composesTogether_parallel e₀ k _)

/-- A walk for several kinds and one for one of them go side by side. -/
theorem parallel_run (plain : c.document.tree.HasPlainLambdas) {n : Node}
    (hn : n ∈ c.document.root.preorder) : WalksAbreast e₀ typeOf p k n := by
  induction n using Node.induction_below with
  | h n ih =>
    have below : ∀ m ∈ n.children, ∀ d ∈ m.preorder, WalksAbreast e₀ typeOf p k d :=
      fun m hm d hd => ih m hm d hd
        (Node.mem_preorder_trans hn (Node.mem_preorder_of_child hm hd))
    by_cases named : n.isNamed = true
    · rw [WalksAbreast, run_eq_level typeOf p n named, run_eq_level typeOf (p.only k) n named]
      refine parallel_level closed declares asks built shape keeps hn
        (fun m hm => below m hm m (Node.mem_preorder_self m))
        (fun m hm d hd => below m hm d (Node.mem_preorder_of_mem_children (Node.mem_preorder_self m) hd))
        ?_
      intro free isLambda list found m hm
      have hlist : list ∈ n.childrenByField .parameters :=
        List.mem_filter.2 ⟨List.mem_of_find?_eq_some found, by simpa using List.find?_some found⟩
      refine run_eq_pure typeOf (by simpa [ScopePoint.only, Flags.only] using free) m fun _ d hd => ?_
      exact plain n hn isLambda list hlist d (Node.mem_preorder_of_child hm hd)
    · rw [WalksAbreast, run_of_not_named typeOf p n (by simpa using named),
        run_of_not_named typeOf (p.only k) n (by simpa using named)]
      exact .pure

end Run

end Walk

end LocalWalk

/-! ## Local declarations -/

section Local

variable {c : Context} {e₀ : Environment} {typeOf : Typing} {flags : Flags} {k : BindingKind}
  (built : Environment.build c = .ok e₀) (shape : c.document.tree.HasLeafNames)
  (plain : c.document.tree.HasPlainLambdas) (keeps : ∀ n, Keeps e₀.Extends (typeOf n))
  (asks : flags.asks k = true)

include built shape plain keeps asks

/-- The local declarations around a node for several kinds and for one of them. -/
theorem parallel_collectLocal {n : Node} (hn : n ∈ c.document.root.preorder) (position : Nat) :
    Parallel e₀ k (k = .variable) (collectLocal typeOf n position flags)
      (collectLocal typeOf n position (flags.only k)) := by
  have closed := (Environment.build_ready built).sound.closed
  unfold collectLocal
  cases found : n.bodyDeclaration with
  | none => simpa only [ite_self] using Parallel.pure
  | some declaration =>
    have member : declaration ∈ c.document.root.preorder := by
      obtain ⟨-, counts, climbed, -⟩ := Node.bodyDeclaration_eq_some found
      exact Tree.mem_of_climb hn (List.mem_of_find?_eq_some climbed)
    have walks : ∀ e e', e₀.Extends e → e₀.Extends e' → Parallel e₀ k (k = .variable)
        (LocalWalk.run typeOf ⟨e.context.unit, e.bindingOf, position, flags⟩ declaration)
        (LocalWalk.run typeOf ⟨e'.context.unit, e'.bindingOf, position, flags.only k⟩ declaration) := by
      intro e e' grown grown'
      rw [grown.context, grown.bindingOf, grown'.context, grown'.bindingOf]
      exact LocalWalk.parallel_run closed rfl asks built shape keeps plain member
    by_cases isMethod : k = .method
    · -- a walk for methods alone offers nothing
      have nothing : ((flags.only k).vars || (flags.only k).types) = false := by
        simp [Flags.only, isMethod]
      simp only [nothing, Bool.false_eq_true, if_false]
      refine .ite_left (fun _ => ?_) fun _ => .pure
      intro st st' abreast
      have idle := LocalWalk.run_eq_pure (σ := Collection) typeOf
        (p := ⟨st'.environment.context.unit, st'.environment.bindingOf, position, flags.only k⟩)
        (by simp [Flags.only, isMethod]) declaration (by simp [Flags.only, isMethod])
      have walk := walks _ _ abreast.first abreast.second st st' abreast
      rwa [idle] at walk
    · have asked : (flags.vars || flags.types) = true := by
        cases k with
        | method => exact absurd rfl isMethod
        | «variable» => simp [show flags.vars = true from asks]
        | type => simp [show flags.types = true from asks]
      have only : ((flags.only k).vars || (flags.only k).types) = true := by
        cases k with
        | method => exact absurd rfl isMethod
        | «variable» => rfl
        | type => rfl
      simp only [asked, only, if_true]
      exact .get_bind fun e e' grown grown' _ => walks e e' grown grown'

end Local

end JavaScope
