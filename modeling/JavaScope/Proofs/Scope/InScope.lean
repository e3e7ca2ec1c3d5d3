import JavaScope.Proofs.Scope.Feed
import JavaScope.Proofs.Scope.Hiding

/-!
# Variables in scope

A walk over a member offers a variable only after it has begun, and a resource only where its
statement keeps it open, but for two exceptions. The names alone among the parameters of a lambda
expression are offered as soon as the position is in it, and the resources of a `try` statement are
offered in its clauses, where they are closed.
-/

namespace JavaScope

/-! ## Where variables are in scope -/

/-- The clauses of a `try` statement after its body. -/
def Kind.isTryClause (k : Kind) : Bool :=
  k == .catchClause || k == .other "finally_clause"

/-- The node is a resource of the `try` statement. -/
def Node.IsResourceOf (n statement : Node) : Prop :=
  n.kind = .resource ∧ statement.kind = .tryWithResourcesStatement ∧
    ∃ list ∈ statement.children, list.kind = .resourceSpecification ∧ n ∈ list.children

namespace ScopePoint

variable {p : ScopePoint} {n lambda statement : Node}

/-- The position is in a clause of the `try` statement. -/
def IsInClause (p : ScopePoint) (statement : Node) : Prop :=
  ∃ clause ∈ statement.children, clause.kind.isTryClause = true ∧ p.isInside clause = true

/-- The variable that the node declares has begun, and is not closed yet if it is a resource. -/
structure InScope (p : ScopePoint) (n : Node) : Prop where
  begun : p.startsBefore n = true
  opened : ∀ statement, n.IsResourceOf statement → ¬ p.IsInClause statement

/-- The position is in the lambda expression, but not yet past the parameter, which is a name
alone. -/
structure IsAhead (p : ScopePoint) (lambda n : Node) : Prop where
  kind : lambda.kind = .lambdaExpression
  parameter : n ∈ Draft.inferredParameters lambda
  inside : p.isInside lambda = true
  late : p.startsBefore n = false

/-- The position is past the resource, in a clause of its statement. -/
structure IsClosed (p : ScopePoint) (statement n : Node) : Prop where
  resource : n.IsResourceOf statement
  begun : p.startsBefore n = true
  clause : p.IsInClause statement

/-- A path on which the nodes have begun that stand where a walk goes backwards. -/
inductive ComesTo (p : ScopePoint) : Node → Node → Prop
  | refl (n : Node) : ComesTo p n n
  | step {n m c : Node} : n.Leads m →
      (LocalWalk.isWalkedBackwards n.kind = true → p.startsBefore m = true) →
      ComesTo p m c → ComesTo p n c

theorem ComesTo.reaches {c : Node} (comes : p.ComesTo n c) : n.Reaches c := by
  induction comes with
  | refl n => exact .refl n
  | step leads _ _ ih => exact .step leads ih

theorem IsAhead.not_inScope (ahead : p.IsAhead lambda n) : ¬ p.InScope n := by
  intro inScope
  have begun := inScope.begun
  rw [ahead.late] at begun
  cases begun

theorem IsClosed.not_inScope (closed : p.IsClosed statement n) : ¬ p.InScope n :=
  fun inScope => inScope.opened statement closed.resource closed.clause

theorem inScope_or_isClosed (begun : p.startsBefore n = true) :
    p.InScope n ∨ ∃ statement, p.IsClosed statement n := by
  by_cases closed : ∃ statement, n.IsResourceOf statement ∧ p.IsInClause statement
  · obtain ⟨statement, resource, clause⟩ := closed
    exact .inr ⟨statement, resource, begun, clause⟩
  · exact .inl ⟨begun, fun statement resource clause => closed ⟨statement, resource, clause⟩⟩

/-- The variable belongs to a node of the member that is in scope, or to a parameter that is ahead or
a closed resource. -/
def Admits (p : ScopePoint) (body : Node) (s : Store) (v : VariableId) : Prop :=
  ∃ n ∈ body.preorder, (s.variable v).node = some n ∧
    (p.InScope n ∨ ∃ around ∈ body.preorder, p.IsAhead around n ∨ p.IsClosed around n)

end ScopePoint

namespace Node

/-- The node above a node below `m` is below `m`, too. -/
theorem mem_preorder_of_above {m n up : Node} (hn : n ∈ m.preorder) (inner : n ≠ m)
    (below : n ∈ up.children) : up ∈ m.preorder := by
  rcases eq_or_child_of_mem_preorder hn with here | ⟨up', hup, below'⟩
  · exact absurd here inner
  · rw [eq_of_mem_children below below']
    exact hup

/-- A name alone among the parameters of a lambda expression is their only one, without a list, or
stands in the list. -/
theorem mem_inferredParameters_iff {lambda d : Node} (fits : lambda.Fits)
    (kind : lambda.kind = .lambdaExpression) :
    d ∈ Draft.inferredParameters lambda ↔ d.kind = .identifier ∧ ∃ list ∈ lambda.children,
      list.field = some .parameters ∧
        (d = list ∨ list.kind ≠ .identifier ∧ d ∈ list.namedChildren) := by
  constructor
  · intro parameter
    refine ⟨(mem_inferredParameters parameter).1, ?_⟩
    unfold Draft.inferredParameters at parameter
    split at parameter
    · cases parameter
    · next list found =>
      obtain ⟨below, field⟩ := mem_children_of_childByField found
      refine ⟨list, below, field, ?_⟩
      split at parameter
      · exact .inl (List.mem_singleton.1 parameter)
      · next isList => exact .inr ⟨by simpa using isList, (List.mem_filter.1 parameter).1⟩
  · rintro ⟨name, list, below, field, here⟩
    have found : lambda.childByField .parameters = some list := by
      rw [childByField, kind, if_neg (by simp [Kind.isError])]
      exact find?_field (fits.single .parameters (by simp)) below field
    rw [Draft.inferredParameters, found]
    rcases here with rfl | ⟨isList, inner⟩
    · simp [name]
    · simp [isList, inner, name]

end Node

namespace LocalWalk

/-! ## What a walk offers -/

/-- A walk over a member of a Java tree, in an environment that has grown from the one that was
built. -/
structure Tours (typeOf : Typing) (p : ScopePoint) (c : Context) (e₀ e : Environment)
    (body : Node) : Prop where
  built : Environment.build c = .ok e₀
  grown : e₀.Grows e
  java : c.unit.tree.IsJava
  shape : c.document.tree.HasLeafNames
  within : body ∈ c.unit.tree.root.preorder
  member : body.kind.isBodyDeclaration = true ∨ body.isInitializerBlock = true
  keeps : ∀ n, Keeps e.Grows (typeOf n)
  unit : p.unit = c.unit
  bindings : p.bindingOf = e₀.bindingOf

namespace Tours

variable {typeOf : Typing} {p : ScopePoint} {c : Context} {e₀ e : Environment} {body n : Node}
  {v : VariableId} (tours : Tours typeOf p c e₀ e body)

include tours

theorem mem_root (hn : n ∈ body.preorder) : n ∈ c.unit.tree.root.preorder :=
  Node.mem_preorder_trans tours.within hn

/-- What holds a node that starts before the position starts before it, too. -/
theorem startsBefore {m : Node} (hm : m ∈ body.preorder) (below : n ∈ m.preorder)
    (begun : p.startsBefore n = true) : p.startsBefore m = true := by
  have java := tours.java
  have hm := tours.mem_root hm
  rw [← tours.unit] at java hm
  exact p.startsBefore_of_below java.isNested hm below begun

/-- What holds a node that holds the position holds it, too. -/
theorem isInside {m : Node} (hm : m ∈ body.preorder) (below : n ∈ m.preorder)
    (inside : p.isInside n = true) : p.isInside m = true := by
  have java := tours.java
  have hm := tours.mem_root hm
  rw [← tours.unit] at java hm
  exact p.isInside_of_below java.isNested hm below inside

/-- The parts of declarations are no members. -/
theorem ne_body (kind : n.kind.isCodeVariable = true ∨ n.kind = .resourceSpecification) :
    n ≠ body := by
  rintro rfl
  have kinds := Node.kind_of_isMember tours.member
  simp only [List.mem_cons, List.not_mem_nil, or_false] at kinds
  rcases kinds with h | h | h | h | h <;> simp [h, Kind.isCodeVariable] at kind

/-- The statement of a resource in the member is in the member. -/
theorem statement_mem {statement : Node} (hn : n ∈ body.preorder)
    (resource : n.IsResourceOf statement) : statement ∈ body.preorder := by
  obtain ⟨kind, -, list, below, isList, inner⟩ := resource
  have hlist := Node.mem_preorder_of_above hn (tours.ne_body (.inl (by rw [kind]; rfl))) inner
  exact Node.mem_preorder_of_above hlist (tours.ne_body (.inr isList)) below

/-- A variable whose node has begun is in scope, or it is a resource that is closed. -/
theorem admits_of_startsBefore (hn : n ∈ body.preorder)
    (node : (e₀.store.variable v).node = some n) (begun : p.startsBefore n = true) :
    p.Admits body e₀.store v := by
  refine ⟨n, hn, node, ?_⟩
  rcases ScopePoint.inScope_or_isClosed begun with inScope | ⟨statement, closed⟩
  · exact .inl inScope
  · exact .inr ⟨statement, tours.statement_mem hn closed.resource, .inr closed⟩

/-- Where a declarator or a parameter has begun, its variable is admitted. -/
theorem admits_of_isCodeVariable (hn : n ∈ body.preorder) (isVariable : n.kind.isCodeVariable = true)
    (begun : p.HasBegun n) (leads : e₀.bindingOf n = some (.variable v)) :
    p.Admits body e₀.store v := by
  have start : p.startsBefore n = true := by
    rcases begun with start | ⟨part, below, start⟩
    · exact start
    · exact tours.startsBefore hn (Node.mem_preorder_of_child below (Node.mem_preorder_self _)) start
  obtain ⟨m, node, here⟩ := Environment.node_of_isCodeVariable tours.built tours.shape
    (tours.mem_root hn) leads isVariable
  rcases here with rfl | ⟨-, below⟩
  · exact tours.admits_of_startsBefore hn node start
  · -- the declarator in a varargs parameter
    have hm := Node.mem_preorder_of_above hn (tours.ne_body (.inl isVariable)) below
    exact tours.admits_of_startsBefore hm node <| tours.startsBefore hm
      (Node.mem_preorder_of_child below (Node.mem_preorder_self _)) start

/-- In a lambda expression that holds the position, the variables of its names alone are admitted. -/
theorem admits_of_parameter {list d : Node} (hn : n ∈ body.preorder)
    (kind : n.kind = .lambdaExpression) (inside : p.isInside n = true) (below : list ∈ n.children)
    (field : list.field = some .parameters) (here : d = list ∨ d ∈ list.namedChildren)
    (name : d.kind = .identifier) (leads : e₀.bindingOf d = some (.variable v)) :
    p.Admits body e₀.store v := by
  have hlist : list ∈ body.preorder := Node.mem_preorder_of_mem_children hn below
  have here' : d = list ∨ d ∈ list.children := here.imp_right fun hd => (List.mem_filter.1 hd).1
  have hd : d ∈ body.preorder := by
    rcases here' with rfl | inner
    · exact hlist
    · exact Node.mem_preorder_of_mem_children hlist inner
  have node := Environment.node_of_identifier tours.built tours.shape (tours.mem_root hd) leads name
    (tours.shape.kind_above_parameter (tours.mem_root hn) kind below field here')
  cases start : p.startsBefore d with
  | true => exact tours.admits_of_startsBefore hd node start
  | false =>
    refine ⟨d, hd, node, .inr ⟨n, hn, .inl ⟨kind, ?_, inside, start⟩⟩⟩
    refine (Node.mem_inferredParameters_iff (tours.java.fits n (tours.mem_root hn)) kind).2
      ⟨name, list, below, field, here.imp_right fun inner => ⟨fun isName => ?_, inner⟩⟩
    -- a name has nothing below it
    have leaf := tours.shape.leaves list (tours.mem_root hlist) (by simp [isName])
    have inner := (List.mem_filter.1 inner).1
    rw [List.isEmpty_iff.1 leaf] at inner
    cases inner

/-! ### Every candidate -/

section Observed

variable {σ : Type} [Request σ]

/-- The variables among what a request was offered are admitted, but for the constants of enums. -/
def Admitted (_ : Tours typeOf p c e₀ e body) (o : Observed σ) : Prop :=
  ∀ v, some (.variable v) ∈ o.offered → (e₀.store.variable v).isEnumConstant = false →
    p.Admits body e₀.store v

/-- Whatever the request makes of it, a search leaves all candidates admitted. -/
abbrev Permits (search : SearchM (Observed σ) Bool) : Prop :=
  Keeps (Searching.Within e.Grows tours.Admitted) search

omit [Request σ] in
theorem composes : Composes (tours.Permits (σ := σ)) where
  pure := .pure false
  orElse h h' := h.bind fun _ => .ite (.pure true) h'

theorem permits_offer {candidate : Option BindingId}
    (admitted : ∀ v, candidate = some (.variable v) →
      (e₀.store.variable v).isEnumConstant = false → p.Admits body e₀.store v) :
    tours.Permits (σ := σ) (SearchM.offer candidate) := by
  rintro ⟨e', o⟩ ⟨grown, before⟩
  rw [SearchM.outcome_offer, outcome_accept_observed]
  refine ⟨grown, fun v hv => ?_⟩
  rcases List.mem_append.1 hv with hv | hv
  · exact before v hv
  · exact admitted v (List.mem_singleton.1 hv).symm

theorem permits_labelConstants : tours.Permits (σ := σ) (labelConstants typeOf n) := by
  unfold labelConstants
  split
  · exact .pure false
  · split
    · exact .pure false
    · next condition _ =>
      refine (keeps_lift (tours.keeps condition)).bind fun t => ?_
      cases t with
      | none => exact .pure false
      | some t =>
        rintro ⟨e', o⟩ ⟨grown, before⟩
        show Searching.Within _ _ (outcome (if e'.store.isEnum t then
          SearchM.offerAll ((e'.store.enumConstants t).map .variable) else pure false) _).2
        split
        · refine tours.composes.anyM (fun b hb => tours.permits_offer ?_) _ ⟨grown, before⟩
          rintro v ⟨⟩ noConstant
          obtain ⟨w, hw, ⟨⟩⟩ := List.mem_map.1 hb
          have isConstant : (e'.store.variable v).isEnumConstant = true := (List.mem_filter.1 hw).2
          rw [grown.store.variable_eq, tours.grown.store.variable_eq, noConstant] at isConstant
          cases isConstant
        · exact ⟨grown, before⟩

/-- What a node declares is offered for a variable only once it has begun. -/
theorem permits_declared (hn : n ∈ body.preorder) (asked : p.asksFor n.kind = true)
    (begun : n.kind.isCodeVariable = true → p.HasBegun n) :
    tours.Permits (σ := σ) (SearchM.offer (p.bindingOf n)) := by
  apply tours.permits_offer
  intro v leads _
  rw [tours.bindings] at leads
  cases isVariable : n.kind.isCodeVariable with
  | true => exact tours.admits_of_isCodeVariable hn isVariable (begun isVariable) leads
  | false =>
    have isType : n.kind.declaresType = true := by
      simp only [ScopePoint.asksFor, isVariable, Bool.and_false, Bool.false_or,
        Bool.and_eq_true] at asked
      exact asked.2
    cases Environment.kind_of_declaresType tours.built tours.shape (tours.mem_root hn) isType leads

/-- The walk at a node offers admitted variables only. -/
theorem permits_run (hn : n ∈ body.preorder) : tours.Permits (σ := σ) (run typeOf p n) := by
  induction n using Node.induction_below with
  | h n ih =>
    have below : ∀ d ∈ n.children, ∀ m ∈ d.preorder, tours.Permits (σ := σ) (run typeOf p m) :=
      fun d hd m hm => ih d hd m hm (Node.mem_preorder_trans hn (Node.mem_preorder_of_child hd hm))
    have inner : ∀ d ∈ n.children, ∀ d' ∈ d.children, tours.Permits (σ := σ) (run typeOf p d') :=
      fun d hd d' hd' =>
        below d hd d' (Node.mem_preorder_of_child hd' (Node.mem_preorder_self d'))
    by_cases named : n.isNamed = true
    · rw [run_eq_level typeOf p n named]
      apply tours.composes.level
      · exact fun d hd => below d hd d (Node.mem_preorder_self d)
      · exact fun d hd _ => inner d hd
      · exact tours.permits_declared hn
      · exact fun _ _ _ => tours.permits_labelConstants
      · intro kind _ inside list hlist field
        refine tours.composes.lambdaParameters (fun d here name => ?_) (inner list hlist)
        apply tours.permits_offer
        intro v leads _
        rw [tours.bindings] at leads
        exact tours.admits_of_parameter hn kind inside hlist field here name leads
    · rw [run_of_not_named typeOf p n (by simpa using named)]
      exact .pure false

end Observed

end Tours

/-! ## What a walk cannot miss -/

/-- A search that answers has not stopped and has lost nothing that the request was offered, which
has `Q` then. Environments on the way have `I`. -/
def Shows (I : Environment → Prop) (Q : Recorder → Prop) (search : SearchM Recorder Bool) : Prop :=
  ∀ e r, I e → ∀ stopped e' r', outcome search ⟨e, r⟩ = (.ok stopped, ⟨e', r'⟩) →
    stopped = false ∧ I e' ∧ (∀ x ∈ r.offered, x ∈ r'.offered) ∧ Q r'

namespace Shows

variable {I : Environment → Prop} {J : Offer → Prop} {x : Option BindingId}

/-- A search with a course goes on to its end with a request that never stops. -/
theorem of_hasCourse {search : AnySearch Bool} (h : HasCourse I J id search) :
    Shows I (fun _ => True) (search Recorder) := by
  intro e r he stopped e' r' run
  obtain ⟨log, last, course⟩ := h e he
  have follows := course.follows Recorder r
  rw [outcome_replay_recorder] at follows
  dsimp only at follows
  rw [run] at follows
  obtain ⟨answer, e₁⟩ := last
  cases follows
  exact ⟨course.unhalted stopped rfl, course.invariant, fun y hy => List.mem_append_left _ hy,
    trivial⟩

theorem offer (candidate : Option BindingId) :
    Shows I (candidate ∈ ·.offered) (SearchM.offer candidate) := by
  rintro e r he _ _ _ ⟨⟩
  exact ⟨rfl, he, fun y hy => List.mem_append_left _ hy,
    List.mem_append_right _ (List.mem_singleton_self _)⟩

theorem weaken {Q : Recorder → Prop} {search : SearchM Recorder Bool} (h : Shows I Q search) :
    Shows I (fun _ => True) search := by
  intro e r he stopped e' r' run
  obtain ⟨unstopped, he', kept, -⟩ := h e r he stopped e' r' run
  exact ⟨unstopped, he', kept, trivial⟩

/-- Where one of two searches that follow each other has shown something, the other one goes on. -/
theorem split {Q : Recorder → Prop} {a b : SearchM Recorder Bool} (h : Shows I Q a)
    {e e' : Environment} {r r' : Recorder} (he : I e) {stopped : Bool}
    (run : outcome (do
      if ← a then return true
      b) ⟨e, r⟩ = (.ok stopped, ⟨e', r'⟩)) :
    ∃ e₁ r₁, I e₁ ∧ (∀ x ∈ r.offered, x ∈ r₁.offered) ∧ Q r₁ ∧
      outcome b ⟨e₁, r₁⟩ = (.ok stopped, ⟨e', r'⟩) := by
  obtain ⟨answer, ⟨e₁, r₁⟩, first, rest⟩ := outcome_bind_eq_ok.1 run
  obtain ⟨rfl, he₁, kept, shown⟩ := h e r he answer e₁ r₁ first
  exact ⟨e₁, r₁, he₁, kept, shown, rest⟩

theorem composes : Composes (Shows I fun _ => True) where
  pure := by
    rintro e r he _ _ _ ⟨⟩
    exact ⟨rfl, he, fun _ hy => hy, trivial⟩
  orElse h h' e r he stopped e' r' run := by
    obtain ⟨e₁, r₁, he₁, kept, -, rest⟩ := h.split he run
    obtain ⟨unstopped, he', kept', -⟩ := h' e₁ r₁ he₁ stopped e' r' rest
    exact ⟨unstopped, he', fun y hy => kept' y (kept y hy), trivial⟩

theorem carries (x : Option BindingId) :
    Carries (Shows I fun _ => True) (Shows I (x ∈ ·.offered)) where
  toComposes := composes
  left h h' e r he stopped e' r' run := by
    obtain ⟨e₁, r₁, he₁, kept, shown, rest⟩ := h.split he run
    obtain ⟨unstopped, he', kept', -⟩ := h' e₁ r₁ he₁ stopped e' r' rest
    exact ⟨unstopped, he', fun y hy => kept' y (kept y hy), kept' x shown⟩
  right h h' e r he stopped e' r' run := by
    obtain ⟨e₁, r₁, he₁, kept, -, rest⟩ := h.split he run
    obtain ⟨unstopped, he', kept', shown⟩ := h' e₁ r₁ he₁ stopped e' r' rest
    exact ⟨unstopped, he', fun y hy => kept' y (kept y hy), shown⟩

end Shows

namespace Tours

variable {typeOf : Typing} {p : ScopePoint} {c : Context} {e₀ e : Environment}
  {body around n : Node} {x : Option BindingId} (tours : Tours typeOf p c e₀ e body)

include tours

theorem shows_run (n : Node) : Shows e.Grows (fun _ => True) (run typeOf p n) := by
  have course : HasCourse e.Grows (fun _ => True) id fun _ _ => run typeOf p n :=
    hasCourse_run tours.keeps (fun _ _ _ => trivial) (fun _ _ _ _ _ _ _ => trivial) n
  exact .of_hasCourse course

/-! ### At the parameter and at the resource -/

/-- A lambda expression that holds the position offers its names alone. -/
theorem shows_parameter (hn : n ∈ body.preorder) (kind : n.kind = .lambdaExpression)
    (inside : p.isInside n = true) (vars : p.flags.vars = true) {d : Node}
    (parameter : d ∈ Draft.inferredParameters n) :
    Shows e.Grows (p.bindingOf d ∈ ·.offered) (run typeOf p n) := by
  have carries : Carries (Shows e.Grows fun _ => True) (Shows e.Grows (p.bindingOf d ∈ ·.offered)) :=
    Shows.carries _
  have fits := tours.java.fits n (tours.mem_root hn)
  obtain ⟨name, list, below, field, here⟩ := (Node.mem_inferredParameters_iff fits kind).1 parameter
  have isPart : part n .parameters = some list :=
    Node.find?_field (fits.single .parameters (by simp)) below field
  rw [run_eq_level typeOf p n (fits.isNamed below), level, kind]
  simp only [inside, if_true]
  apply carries.right
  · exact carries.toComposes.runAt fun d _ => tours.shows_run d
  simp only [isPart, vars, if_true]
  rcases here with rfl | ⟨isList, inner⟩
  · rw [lambdaParameters_spread, if_pos (by simp [name])]
    exact .offer _
  · rw [lambdaParameters_spread, if_neg (by simpa using isList)]
    have hlist := Node.mem_preorder_of_mem_children (tours.mem_root hn) below
    have nodup : list.namedChildren.Nodup := (tours.java.nodup_children hlist).filter _
    refine carries.anyM (List.nodup_reverse.2 nodup) (List.mem_reverse.2 inner) ?_ ?_
    · rw [if_pos (by simp [name])]
      exact .offer _
    · intro d' _ _
      split
      · exact (Shows.offer (p.bindingOf d')).weaken
      · exact tours.shows_run d'

/-- A resource that has begun offers its variable. -/
theorem shows_resource (kind : n.kind = .resource) (named : n.isNamed = true)
    (begun : p.startsBefore n = true) (vars : p.flags.vars = true) :
    Shows e.Grows (p.bindingOf n ∈ ·.offered) (run typeOf p n) := by
  have carries : Carries (Shows e.Grows fun _ => True) (Shows e.Grows (p.bindingOf n ∈ ·.offered)) :=
    Shows.carries _
  rw [run_eq_level typeOf p n named, level, kind]
  apply carries.left
  · rw [offerDeclared, vars, begun]
    exact .offer _
  · exact carries.toComposes.anyM fun d _ => tours.shows_run d

/-- A `try` statement that holds the position offers all resources that have begun, also in its
clauses. -/
theorem shows_statement {statement : Node} (hs : statement ∈ body.preorder)
    (inside : p.isInside statement = true) (vars : p.flags.vars = true)
    (resource : n.IsResourceOf statement) (named : n.isNamed = true)
    (begun : p.startsBefore n = true) :
    Shows e.Grows (p.bindingOf n ∈ ·.offered) (run typeOf p statement) := by
  have carries : Carries (Shows e.Grows fun _ => True) (Shows e.Grows (p.bindingOf n ∈ ·.offered)) :=
    Shows.carries _
  obtain ⟨kind, isTry, list, below, isList, inner⟩ := resource
  have hs := tours.mem_root hs
  have hlist := Node.mem_preorder_of_mem_children hs below
  have fits := tours.java.fits statement hs
  have listNamed : list ∈ statement.namedChildren :=
    List.mem_filter.2 ⟨below, (tours.java.fits list hlist).isNamed inner⟩
  rw [run_eq_level typeOf p statement (fits.isNamed below), level, isTry]
  simp only [inside, if_true]
  apply carries.right
  · exact carries.toComposes.anyM fun d _ => tours.shows_run d
  rw [fits.getLast?_resources listNamed isList]
  have member : n ∈ list.namedChildren := List.mem_filter.2 ⟨inner, named⟩
  have nodup : list.namedChildren.Nodup := (tours.java.nodup_children hlist).filter _
  refine carries.anyM ((List.nodup_reverse.2 nodup).filter _) ?_
    (tours.shows_resource kind named begun vars) fun d _ _ => tours.shows_run d
  exact List.mem_filter.2 ⟨List.mem_reverse.2 member, by simp [named, begun]⟩

/-! ### On the path -/

/-- What the walk offers at the end of a path that holds the position it offers at every node of the
path. -/
theorem shows_path {m : Node} (comes : p.ComesTo m around) (hm : m ∈ body.preorder)
    (field : m.kind.isFieldDeclaration = false) (active : ¬ around.IsInert)
    (plain : isList around.kind = false) (inside : p.isInside around = true)
    (vars : p.flags.vars = true) (h : Shows e.Grows (x ∈ ·.offered) (run typeOf p around)) :
    Shows e.Grows (x ∈ ·.offered) (run typeOf p m) ∧ (m ≠ around → ∃ d,
      StepsTo typeOf p (Shows e.Grows fun _ => True) (Shows e.Grows (x ∈ ·.offered)) m d) := by
  -- a list is skipped by the level above it, so the step from the next node is kept as well
  induction comes with
  | refl n => exact ⟨h, fun other => absurd rfl other⟩
  | @step n m around leads begun comes ih =>
    have hroot := tours.mem_root hm
    have hm' : m ∈ body.preorder := Node.mem_preorder_of_mem_children hm leads.below
    obtain ⟨shows, onward⟩ := ih hm'
      (tours.java.not_isFieldDeclaration_of_leads hroot leads) active plain inside h
    have step : StepsTo typeOf p (Shows e.Grows fun _ => True) (Shows e.Grows (x ∈ ·.offered)) n m :=
      { fits := tours.java.fits n hroot
        nodup := tours.java.nodup_children hroot
        leads := leads
        code := tours.java.mayHoldCode_of_leads hroot leads comes.reaches active
        carried := shows
        beside d _ _ := tours.shows_run d
        late isWalked late := by
          rw [begun isWalked] at late
          cases late }
    have hands : HandsOver typeOf p (Shows e.Grows fun _ => True) (Shows e.Grows (x ∈ ·.offered))
        n m :=
      { toStepsTo := step
        inner d _ _ _ d' _ := tours.shows_run d'
        onward list := onward fun same => by
          rw [same, plain] at list
          cases list
        names _ _ _ _ d _ _ := (Shows.offer (p.bindingOf d)).weaken }
    refine ⟨?_, fun _ => ⟨m, step⟩⟩
    rw [run_eq_level typeOf p n step.start_named]
    apply hands.level (Shows.carries x) (fun _ _ => vars) field
    · intro outside
      have below := Node.mem_preorder_of_child leads.below comes.reaches.mem_preorder
      rw [tours.isInside hm below inside] at outside
      cases outside
    · exact fun _ => (Shows.offer (p.bindingOf n)).weaken

/-- The walk over the member offers what it offers at the end of a path. -/
theorem shows_member (comes : p.ComesTo body around) (active : ¬ around.IsInert)
    (plain : isList around.kind = false) (inside : p.isInside around = true)
    (vars : p.flags.vars = true) (h : Shows e.Grows (x ∈ ·.offered) (run typeOf p around)) :
    Shows e.Grows (x ∈ ·.offered) (run typeOf p body) :=
  (tours.shows_path comes (Node.mem_preorder_self body) (body_kind tours.member).2.2 active plain
    inside vars h).1

/-! ### Variables out of scope -/

/-- A name alone that is ahead is the node of its variable, and the walk offers it where it comes to
the lambda expression. -/
theorem shows_ahead (comes : p.ComesTo body around) (ahead : p.IsAhead around n)
    (vars : p.flags.vars = true) {v : VariableId} (leads : e₀.bindingOf n = some (.variable v)) :
    (e₀.store.variable v).node = some n ∧
      Shows e.Grows (some (.variable v) ∈ ·.offered) (run typeOf p body) := by
  have hn := comes.reaches.mem_preorder
  have fits := tours.java.fits around (tours.mem_root hn)
  obtain ⟨name, list, below, field, here⟩ :=
    (Node.mem_inferredParameters_iff fits ahead.kind).1 ahead.parameter
  have here' : n = list ∨ n ∈ list.children := here.imp_right fun h => (List.mem_filter.1 h.2).1
  constructor
  · have member := Node.mem_preorder_trans hn
      (Node.mem_preorder_of_mem_inferredParameters ahead.parameter)
    exact Environment.node_of_identifier tours.built tours.shape (tours.mem_root member) leads name
      (tours.shape.kind_above_parameter (tours.mem_root hn) ahead.kind below field here')
  · have active : ¬ around.IsInert := by
      simp [Node.IsInert, fits.isNamed below, ahead.kind, Kind.isHeader, Kind.isAnnotation]
    have offered := tours.shows_parameter hn ahead.kind ahead.inside vars ahead.parameter
    rw [tours.bindings, leads] at offered
    exact tours.shows_member comes active (by rw [ahead.kind]; rfl) ahead.inside vars offered

/-- A closed resource is the node of its variable, and the walk offers it where it comes to the
statement. -/
theorem shows_closed (comes : p.ComesTo body around) (closed : p.IsClosed around n)
    (vars : p.flags.vars = true) {v : VariableId} (leads : e₀.bindingOf n = some (.variable v)) :
    (e₀.store.variable v).node = some n ∧
      Shows e.Grows (some (.variable v) ∈ ·.offered) (run typeOf p body) := by
  have hs := comes.reaches.mem_preorder
  obtain ⟨kind, isTry, list, below, isList, inner⟩ := closed.resource
  have hlist := Node.mem_preorder_of_mem_children hs below
  have hn := Node.mem_preorder_of_mem_children hlist inner
  have isVariable : n.kind.isCodeVariable = true := by rw [kind]; rfl
  constructor
  · obtain ⟨m, node, here⟩ := Environment.node_of_isCodeVariable tours.built tours.shape
      (tours.mem_root hn) leads isVariable
    rcases here with rfl | ⟨isSpread, below'⟩
    · exact node
    · rw [Node.eq_of_mem_children below' inner, isList] at isSpread
      cases isSpread
  · have named : n.isNamed = true := by
      obtain ⟨name, hasName, -⟩ := Environment.declaredAt_of_isCodeVariable tours.built tours.shape
        (tours.mem_root hn) isVariable leads
      have fits := tours.java.fits n (tours.mem_root hn)
      obtain ⟨-, below | ⟨-, part, below, -⟩⟩ := Node.variableName_cases (.inr isVariable) hasName
      · exact fits.isNamed below
      · exact fits.isNamed below
    obtain ⟨clause, part, -, held⟩ := closed.clause
    have inside := tours.isInside hs (Node.mem_preorder_of_child part (Node.mem_preorder_self _)) held
    have active : ¬ around.IsInert := by
      simp [Node.IsInert, (tours.java.fits around (tours.mem_root hs)).isNamed below, isTry,
        Kind.isHeader, Kind.isAnnotation]
    have offered := tours.shows_statement hs inside vars closed.resource named closed.begun
    rw [tours.bindings, leads] at offered
    exact tours.shows_member comes active (by rw [isTry]; rfl) inside vars offered

end Tours

/-- The walk over a member for a point of the environment. -/
theorem tours_point {c : Context} {e₀ e : Environment} {body : Node}
    (built : Environment.build c = .ok e₀) (grown : e₀.Grows e) (java : c.unit.tree.IsJava)
    (shape : c.document.tree.HasLeafNames) (within : body ∈ c.unit.tree.root.preorder)
    (member : body.kind.isBodyDeclaration = true ∨ body.isInitializerBlock = true)
    (position : Nat) (flags : Flags) :
    Tours Scope.expressionType (e.point position flags) c e₀ e body where
  built := built
  grown := grown
  java := java
  shape := shape
  within := within
  member := member
  keeps := Scope.keeps_expressionType
  unit := by
    show e.context.unit = c.unit
    rw [grown.context, (Environment.build_ready built).sound.context]
  bindings := grown.bindingOf

/-- In an error-free tree, whatever a request makes of it, the walk over a member offers variables
other than enum constants only if their nodes are in scope, or if they are names alone of a lambda
expression that are ahead, or resources that are closed. It does offer the variables of these, where
it comes to the lambda expression and the statement, to a request that never stops. -/
theorem run_offers_inScope {c : Context} {e₀ e : Environment} {body : Node}
    (built : Environment.build c = .ok e₀) (grown : e₀.Grows e) (java : c.unit.tree.IsJava)
    (shape : c.document.tree.HasLeafNames) (within : body ∈ c.unit.tree.root.preorder)
    (member : body.kind.isBodyDeclaration = true ∨ body.isInitializerBlock = true)
    (position : Nat) (flags : Flags) :
    let p := e.point position flags
    let walk : AnySearch Bool := fun _ _ => run Scope.expressionType p body
    (∀ (σ : Type) [Request σ] (r : σ) (v : VariableId),
        some (.variable v) ∈
          (outcome (walk (Observed σ)) ⟨e, ⟨r, []⟩⟩).2.request.offered →
        (e.store.variable v).isEnumConstant = false →
          ∃ n ∈ body.preorder, (e.store.variable v).node = some n ∧
            (p.InScope n ∨ ∃ around ∈ body.preorder, p.IsAhead around n ∨ p.IsClosed around n)) ∧
      (flags.vars = true → ∀ (around n : Node) (v : VariableId),
        e.bindingOf n = some (.variable v) → p.ComesTo body around →
        (p.IsAhead around n ∨ p.IsClosed around n) →
          (e.store.variable v).node = some n ∧ ¬ p.InScope n ∧
            ∀ stopped e' r, outcome (walk Recorder) ⟨e, Recorder.empty⟩ = (.ok stopped, ⟨e', r⟩) →
              some (.variable v) ∈ r.offered) := by
  intro p walk
  have tours : Tours Scope.expressionType p c e₀ e body :=
    tours_point built grown java shape within member position flags
  have same : ∀ v, e.store.variable v = e₀.store.variable v := grown.store.variable_eq
  constructor
  · intro σ _ r v offered noConstant
    rw [same] at noConstant
    have permits := tours.permits_run (σ := σ) (Node.mem_preorder_self body) ⟨e, ⟨r, []⟩⟩
      ⟨.refl e, fun _ => nofun⟩
    rw [same]
    exact permits.2 v offered noConstant
  · intro vars around n v leads comes out
    rw [grown.bindingOf] at leads
    rw [same]
    rcases out with ahead | closed
    · obtain ⟨node, shows⟩ := tours.shows_ahead comes ahead vars leads
      exact ⟨node, ahead.not_inScope, fun stopped e' r run =>
        (shows e .empty (.refl e) stopped e' r run).2.2.2⟩
    · obtain ⟨node, shows⟩ := tours.shows_closed comes closed vars leads
      exact ⟨node, closed.not_inScope, fun stopped e' r run =>
        (shows e .empty (.refl e) stopped e' r run).2.2.2⟩

/-! ## In a clause, at a lambda expression -/

open Scope (firstNode lambdaPart)

/-- `class A { F m() { try (R r = s) { } catch (E e) { return x -> x; } } }` -/
def lambdaInCatch : Context :=
  .ofFile ("class A \x7b F m() \x7b try (R r = s) \x7b \x7d " ++
      "catch (E e) \x7b return x -> x; \x7d \x7d \x7d") <|
    .named .program none 0 70 [
      .named .classDeclaration none 0 70 [
        .token "class" 0, .named .identifier (some .name) 6 7 [],
        .named .classBody (some .body) 8 70 [
          .token "\x7b" 8,
          .named .methodDeclaration none 10 68 [
            .named .typeIdentifier (some .type) 10 11 [], .named .identifier (some .name) 12 13 [],
            .named .formalParameters (some .parameters) 13 15 [.token "(" 13, .token ")" 14],
            .named .block (some .body) 16 68 [
              .token "\x7b" 16,
              .named .tryWithResourcesStatement none 18 66 [
                .token "try" 18,
                .named .resourceSpecification (some (.other "resources")) 22 31 [
                  .token "(" 22,
                  .named .resource none 23 30 [
                    .named .typeIdentifier (some .type) 23 24 [],
                    .named .identifier (some .name) 25 26 [], .token "=" 27,
                    .named .identifier (some .value) 29 30 []],
                  .token ")" 30],
                .named .block (some .body) 32 35 [.token "\x7b" 32, .token "\x7d" 34],
                .named .catchClause none 36 66 [
                  .token "catch" 36, .token "(" 42,
                  .named .catchFormalParameter none 43 46 [
                    .named .catchType none 43 44 [.named .typeIdentifier none 43 44 []],
                    .named .identifier (some .name) 45 46 []],
                  .token ")" 46,
                  .named .block (some .body) 48 66 [
                    .token "\x7b" 48,
                    .named .returnStatement none 50 64 [
                      .token "return" 50,
                      .named .lambdaExpression none 57 63 [
                        .named .identifier (some .parameters) 57 58 [], .token "->" 59,
                        .named .identifier (some .body) 62 63 []],
                      .token ";" 63],
                    .token "\x7d" 65]]],
              .token "\x7d" 67]],
          .token "\x7d" 69]]]

set_option maxRecDepth 100000 in
theorem lambdaInCatch_computed :
    (match Environment.build lambdaInCatch with
    | .error _ => none
    | .ok e =>
      let p := e.point 57 .onlyVariables
      match outcome (run Scope.expressionType p (firstNode lambdaInCatch .methodDeclaration))
          ⟨e, Recorder.empty⟩ with
      | (.error _, _) => none
      | (.ok _, ⟨_, r⟩) => some (r.offered,
          e.bindingOf (lambdaPart lambdaInCatch .parameters),
          e.bindingOf (firstNode lambdaInCatch .resource),
          p.startsBefore (lambdaPart lambdaInCatch .parameters),
          [Kind.lambdaExpression, .catchClause].all fun k => p.isInside (firstNode lambdaInCatch k),
          [Kind.tryWithResourcesStatement, .returnStatement, .resource].all fun k =>
            p.startsBefore (firstNode lambdaInCatch k))) =
      some ([some (.variable ⟨2⟩), some (.variable ⟨1⟩), some (.variable ⟨0⟩)],
        some (.variable ⟨2⟩), some (.variable ⟨0⟩), false, true, true) := by
  decide +kernel

theorem lambdaInCatch_shape : lambdaInCatch.unit.tree.IsJava ∧
    lambdaInCatch.document.tree.HasLeafNames := by
  constructor <;> decide

theorem lambdaInCatch_tours {e : Environment} (built : Environment.build lambdaInCatch = .ok e) :
    Tours Scope.expressionType (e.point 57 .onlyVariables) lambdaInCatch e e
      (firstNode lambdaInCatch .methodDeclaration) :=
  tours_point built (.refl e) lambdaInCatch_shape.1 lambdaInCatch_shape.2
    (List.mem_of_find?_eq_some (p := (·.kind == .methodDeclaration)) rfl)
    (.inl (by decide)) 57 .onlyVariables

/-- At the start of the lambda expression its parameter is ahead, and the resource is closed. -/
theorem lambdaInCatch_out {p : ScopePoint}
    (late : p.startsBefore (lambdaPart lambdaInCatch .parameters) = false)
    (inside : ∀ k ∈ [Kind.lambdaExpression, .catchClause],
      p.isInside (firstNode lambdaInCatch k) = true)
    (begun : ∀ k ∈ [Kind.tryWithResourcesStatement, .returnStatement, .resource],
      p.startsBefore (firstNode lambdaInCatch k) = true) :
    (p.ComesTo (firstNode lambdaInCatch .methodDeclaration)
        (firstNode lambdaInCatch .lambdaExpression) ∧
      p.IsAhead (firstNode lambdaInCatch .lambdaExpression)
        (lambdaPart lambdaInCatch .parameters)) ∧
    p.ComesTo (firstNode lambdaInCatch .methodDeclaration)
        (firstNode lambdaInCatch .tryWithResourcesStatement) ∧
      p.IsClosed (firstNode lambdaInCatch .tryWithResourcesStatement)
        (firstNode lambdaInCatch .resource) := by
  have body : (firstNode lambdaInCatch .methodDeclaration).Leads (firstNode lambdaInCatch .block) :=
    ⟨List.mem_of_getElem? (i := 3) rfl, by decide, by decide⟩
  have block : (firstNode lambdaInCatch .block).Leads
      (firstNode lambdaInCatch .tryWithResourcesStatement) :=
    ⟨List.mem_of_getElem? (i := 1) rfl, by decide, by decide⟩
  have statement : (firstNode lambdaInCatch .tryWithResourcesStatement).Leads
      (firstNode lambdaInCatch .catchClause) :=
    ⟨List.mem_of_getElem? (i := 3) rfl, by decide, by decide⟩
  have clause : (firstNode lambdaInCatch .catchClause).Leads
      ((firstNode lambdaInCatch .returnStatement).parent.getD lambdaInCatch.root) :=
    ⟨List.mem_of_getElem? (i := 4) rfl, by decide, by decide⟩
  have block' : ((firstNode lambdaInCatch .returnStatement).parent.getD lambdaInCatch.root).Leads
      (firstNode lambdaInCatch .returnStatement) :=
    ⟨List.mem_of_getElem? (i := 1) rfl, by decide, by decide⟩
  have return' : (firstNode lambdaInCatch .returnStatement).Leads
      (firstNode lambdaInCatch .lambdaExpression) :=
    ⟨List.mem_of_getElem? (i := 1) rfl, by decide, by decide⟩
  have start := begun .tryWithResourcesStatement (by simp)
  have start' := begun .returnStatement (by simp)
  refine ⟨⟨?_, ?_⟩, ?_, ?_⟩
  · exact .step body nofun <| .step block (fun _ => start) <| .step statement nofun <|
      .step clause nofun <| .step block' (fun _ => start') <| .step return' nofun <| .refl _
  · exact ⟨by decide, List.mem_of_getElem? (i := 0) rfl, inside _ (by simp), late⟩
  · exact .step body nofun <| .step block (fun _ => start) <| .refl _
  · exact ⟨⟨by decide, by decide, firstNode lambdaInCatch .resourceSpecification,
      List.mem_of_getElem? (i := 1) rfl, by decide, List.mem_of_getElem? (i := 1) rfl⟩,
      begun _ (by simp), firstNode lambdaInCatch .catchClause, List.mem_of_getElem? (i := 3) rfl,
      by decide, inside _ (by simp)⟩

theorem run_offers_inScope_lambdaInCatch :
    ∃ e, Environment.build lambdaInCatch = .ok e ∧ lambdaInCatch.unit.tree.IsJava ∧
      lambdaInCatch.document.tree.HasLeafNames ∧
      let body := firstNode lambdaInCatch .methodDeclaration
      let x := lambdaPart lambdaInCatch .parameters
      let r := firstNode lambdaInCatch .resource
      let p := e.point 57 .onlyVariables
      (∀ (k : Collection) (v : VariableId),
          some (.variable v) ∈ (outcome (run Scope.expressionType p body)
            (⟨e, ⟨k, []⟩⟩ : Searching (Observed Collection))).2.request.offered →
          (e.store.variable v).isEnumConstant = false →
            ∃ n ∈ body.preorder, (e.store.variable v).node = some n ∧
              (p.InScope n ∨ ∃ around ∈ body.preorder, p.IsAhead around n ∨ p.IsClosed around n)) ∧
        ((e.store.variable ⟨2⟩).node = some x ∧ ¬ p.InScope x) ∧
        ((e.store.variable ⟨0⟩).node = some r ∧ ¬ p.InScope r) ∧
        ∀ stopped e' k, outcome (run Scope.expressionType p body) ⟨e, Recorder.empty⟩ =
            (.ok stopped, ⟨e', k⟩) →
          some (.variable ⟨2⟩) ∈ k.offered ∧ some (.variable ⟨0⟩) ∈ k.offered := by
  have computed := lambdaInCatch_computed
  split at computed
  · cases computed
  · next e built =>
    dsimp only at computed
    split at computed
    · cases computed
    · next ran =>
      simp only [Option.some.injEq, Prod.mk.injEq] at computed
      obtain ⟨-, leads, leads', late, inside, begun⟩ := computed
      obtain ⟨⟨comes, ahead⟩, comes', closed⟩ :=
        lambdaInCatch_out late (List.all_eq_true.1 inside) (List.all_eq_true.1 begun)
      obtain ⟨java, shape⟩ := lambdaInCatch_shape
      obtain ⟨inScope, offers⟩ := run_offers_inScope built (.refl e) java shape
        (List.mem_of_find?_eq_some (p := (·.kind == .methodDeclaration)) rfl)
        (.inl (by decide)) 57 .onlyVariables
      obtain ⟨node, out, offered⟩ := offers rfl _ _ _ leads comes (.inl ahead)
      obtain ⟨node', out', offered'⟩ := offers rfl _ _ _ leads' comes' (.inr closed)
      exact ⟨e, built, java, shape, fun k => inScope Collection k, ⟨node, out⟩, ⟨node', out'⟩,
        fun stopped e' k run => ⟨offered stopped e' k run, offered' stopped e' k run⟩⟩

/-- In the clause the walk offers the parameter that is ahead, and the resource that is closed. -/
theorem lambdaInCatch_offers_out_of_scope :
    ∃ e e', Environment.build lambdaInCatch = .ok e ∧ lambdaInCatch.unit.tree.IsJava ∧
      lambdaInCatch.document.tree.HasLeafNames ∧
      let body := firstNode lambdaInCatch .methodDeclaration
      let x := lambdaPart lambdaInCatch .parameters
      let r := firstNode lambdaInCatch .resource
      let p := e.point 57 .onlyVariables
      outcome (run Scope.expressionType p body) ⟨e, Recorder.empty⟩ =
          (.ok false, ⟨e', ⟨[some (.variable ⟨2⟩), some (.variable ⟨1⟩), some (.variable ⟨0⟩)]⟩⟩) ∧
        ((e.store.variable ⟨2⟩).node = some x ∧ p.startsBefore x = false) ∧
        (e.store.variable ⟨0⟩).node = some r ∧
          ∃ statement, r.IsResourceOf statement ∧ p.IsInClause statement := by
  have computed := lambdaInCatch_computed
  split at computed
  · cases computed
  · next e built =>
    dsimp only at computed
    split at computed
    · cases computed
    · next stopped e' k ran =>
      obtain ⟨offered⟩ := k
      simp only [Option.some.injEq, Prod.mk.injEq] at computed
      obtain ⟨rfl, leads, leads', late, inside, begun⟩ := computed
      obtain ⟨⟨comes, ahead⟩, comes', closed⟩ :=
        lambdaInCatch_out late (List.all_eq_true.1 inside) (List.all_eq_true.1 begun)
      have tours := lambdaInCatch_tours built
      have unstopped : stopped = false :=
        (tours.shows_run _ e .empty (.refl e) stopped _ _ ran).1
      rw [unstopped] at ran
      exact ⟨e, e', built, lambdaInCatch_shape.1, lambdaInCatch_shape.2, ran,
        ⟨(tours.shows_ahead comes ahead rfl leads).1, late⟩,
        (tours.shows_closed comes' closed rfl leads').1, _, closed.resource, closed.clause⟩

end LocalWalk

end JavaScope
