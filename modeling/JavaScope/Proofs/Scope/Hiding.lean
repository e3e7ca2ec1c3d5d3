import JavaScope.Proofs.Scope.Growth
import JavaScope.Proofs.Scope.Lambdas

/-!
# The parameters of a lambda expression hide fields

A name alone in the body of a lambda expression refers to a variable that is no field if it has the
text of one of the parameters: the walk over the member around the name collects a parameter before
the fields of any type are looked at.
-/

namespace JavaScope

namespace Node

/-! ## The member around a name -/

/-- The first node with a property on the way up is below the others with it. -/
theorem mem_preorder_of_find?_climb {q : Node → Bool} {n m d : Node}
    (found : n.climb.find? q = some d) (below : n ∈ m.preorder) (hm : q m = true) :
    d ∈ m.preorder := by
  obtain ⟨sub, ups⟩ := n
  induction ups generalizing sub with
  | nil =>
    rw [climb, List.find?_cons] at found
    split at found
    · cases found
      exact below
    · cases found
  | cons up rest ih =>
    have unfolded : (⟨sub, up :: rest⟩ : Node).climb =
        ⟨sub, up :: rest⟩ :: (⟨up, rest⟩ : Node).climb := rfl
    rw [unfolded, List.find?_cons] at found
    split at found
    · cases found
      exact below
    · next other =>
      rcases eq_or_child_of_mem_preorder below with here | ⟨above, habove, child⟩
      · rw [here, hm] at other
        cases other
      · have same : (⟨up, rest⟩ : Node) = above := by
          have parent := parent_of_mem_children child
          exact Option.some.inj parent
        exact ih up found (same ▸ habove)

/-- The member around a name is a method or an initializer, and no type stands between the two. -/
theorem bodyDeclaration_spec {n d : Node} (h : n.bodyDeclaration = some d) :
    d ∈ n.climb ∧ (d.kind.isBodyDeclaration = true ∨ d.isInitializerBlock = true) ∧
      ∀ m ∈ d.preorder, n ∈ m.preorder → m.kind.isTypeDeclaration = false := by
  obtain ⟨member, counts, found, types⟩ := bodyDeclaration_eq_some h
  refine ⟨List.mem_of_find?_eq_some found, member, ?_⟩
  intro m hm below
  by_contra type
  rw [Bool.not_eq_false] at type
  have down := mem_preorder_of_find?_climb found below (types m type)
  rw [mem_preorder_antisymm down hm] at type
  have kinds := kind_of_isMember member
  simp only [List.mem_cons, List.not_mem_nil, or_false] at kinds
  rcases kinds with kind | kind | kind | kind | kind <;> rw [kind] at type <;> cases type

/-- The parameters stand in their list. -/
theorem exists_list_of_mem_lambdaParameters {n q : Node} (h : q ∈ n.lambdaParameters) :
    ∃ list ∈ n.children, list.field = some .parameters ∧ q ∈ list.preorder := by
  rcases mem_lambdaParameters h with inferred | ⟨-, list, below, field, -, member⟩
  · obtain ⟨-, list, below, field, rfl | member⟩ := mem_inferredParameters inferred
    · exact ⟨q, below, field, mem_preorder_self q⟩
    · exact ⟨list, below, field, mem_preorder_of_child member (mem_preorder_self q)⟩
  · have inner := (List.mem_filter.1 member).1
    exact ⟨list, below, field, mem_preorder_of_child inner (mem_preorder_self q)⟩

/-- The name of a parameter stands in it. -/
theorem parameterName_cases {n q name : Node} (h : q ∈ n.lambdaParameters)
    (isName : q.parameterName = some name) :
    q.kind = .identifier ∧ name = q ∨
      q.kind = .formalParameter ∧ q.nameNode = some name ∧ name ∈ q.preorder := by
  unfold parameterName at isName
  split at isName
  · next kind =>
    cases isName
    exact .inl ⟨by simpa using kind, rfl⟩
  · next other =>
    have kind : q.kind = .formalParameter := by
      rcases mem_lambdaParameters h with inferred | ⟨kind, -⟩
      · exact absurd (by simpa using (mem_inferredParameters inferred).1) other
      · exact kind
    refine .inr ⟨kind, isName, ?_⟩
    rcases nameNode_cases isName with ⟨below, -⟩ | ⟨spread, -⟩ | ⟨type, -⟩
    · exact mem_preorder_of_child below (mem_preorder_self name)
    · simp [kind] at spread
    · simp [kind] at type

end Node

namespace LocalWalk

/-- A name stands in the body of a lambda expression, and a walk for its position comes to the
lambda expression from the member around. -/
structure Reads (typeOf : Typing) (p : ScopePoint) (c : Context) (e₀ e : Environment)
    (body lambda code n : Node) : Prop extends Hides typeOf p c e₀ e body where
  order : c.unit.tree.IsInOrder
  shown : c.unit.ShowsNames lambda
  place : p.IsAt c.unit n
  member : body.kind.isBodyDeclaration = true ∨ body.isInitializerBlock = true
  path : body.Reaches lambda
  isLambda : lambda.kind = .lambdaExpression
  child : code ∈ lambda.children
  isBody : code.field = some .body
  inBody : n ∈ code.preorder

namespace Reads

variable {typeOf : Typing} {p : ScopePoint} {c : Context} {e₀ e : Environment}
  {body lambda code n : Node} (reads : Reads typeOf p c e₀ e body lambda code n)

include reads

theorem lambda_mem : lambda ∈ c.unit.tree.root.preorder :=
  Node.mem_preorder_trans reads.within reads.path.mem_preorder

theorem named : lambda.isNamed = true :=
  (reads.java.fits lambda reads.lambda_mem).isNamed reads.child

theorem not_inert : ¬ lambda.IsInert := by
  rintro (token | header | annotation)
  · rw [reads.named] at token
    cases token
  · rw [reads.isLambda] at header
    cases header
  · rw [reads.isLambda] at annotation
    cases annotation

/-- What holds the lambda expression holds the position. -/
theorem isInside {m : Node} (hm : m ∈ c.unit.tree.root.preorder) (below : lambda ∈ m.preorder) :
    p.isInside m = true :=
  (reads.place.isInside_iff reads.java reads.order hm).2 <|
    Node.mem_preorder_trans below (Node.mem_preorder_of_child reads.child reads.inBody)

/-- What holds a parameter starts before the position. -/
theorem startsBefore {m q name : Node} (hq : q ∈ lambda.lambdaParameters)
    (isName : q.parameterName = some name) (hm : m ∈ c.unit.tree.root.preorder)
    (below : q ∈ m.preorder) : p.startsBefore m = true := by
  have hlambda := reads.lambda_mem
  obtain ⟨list, hlist, field, inList⟩ := Node.exists_list_of_mem_lambdaParameters hq
  have hq' := Node.mem_preorder_trans hlambda (Node.mem_preorder_of_mem_lambdaParameters hq)
  have inner : name ∈ q.preorder ∧
      name.kind ∈ [Kind.identifier, .other "underscore_pattern"] := by
    rcases Node.parameterName_cases hq isName with ⟨kind, rfl⟩ | ⟨kind, named, inner⟩
    · exact ⟨Node.mem_preorder_self _, by simp [kind]⟩
    · exact ⟨inner,
        (Environment.name_of_isCodeVariable reads.shape hq' (by rw [kind]; rfl) named).2⟩
  have nameInList : name ∈ list.preorder := Node.mem_preorder_trans inList inner.1
  have shown := reads.shown name (Node.mem_preorder_of_child hlist nameInList) inner.2
  apply reads.place.startsBefore reads.java hm (Node.mem_preorder_trans below inner.1) shown
  -- the list of parameters comes before the body
  have other : list ≠ code := by
    rintro rfl
    rw [reads.isBody] at field
    cases field
  have first : [list, code].Sublist lambda.children := by
    rcases pair_sublist_of_mem hlist reads.child other with first | last
    · exact first
    · have apart := (reads.shape.parts lambda hlambda).order.forall_sublist last
      exact absurd field (apart reads.isBody)
  have gap := c.unit.charRange_siblings reads.java.isNested hlambda hlist reads.child
    ((reads.order lambda hlambda).forall_sublist first)
  have before := c.unit.charRange_nested reads.java.isNested
    (Node.mem_preorder_of_mem_children hlambda hlist) nameInList
  have after := c.unit.charRange_nested reads.java.isNested
    (Node.mem_preorder_of_mem_children hlambda reads.child) reads.inBody
  rw [ParsedUnit.charStart]
  omega

/-! ## At the lambda expression -/

/-- Below the lambda expression nothing but types declares fields. -/
theorem isFree_part (free : IsFree lambda) {d : Node} (hd : d ∈ lambda.children) : IsFree d :=
  free.child hd (by rw [reads.isLambda]; rfl) (by rw [reads.isLambda]; rfl)

theorem gathers_below {d m : Node} (hd : d ∈ lambda.children) (hm : m ∈ d.preorder)
    (free : IsFree m) : Gathers e (fun _ => True) (run typeOf p m) := by
  apply reads.toHides.gathers_run _ free
  exact Node.mem_preorder_trans reads.path.mem_preorder (Node.mem_preorder_of_child hd hm)

/-- The walks at the parameters, and below those with a type, collect no fields. -/
theorem gathers_inner (free : IsFree lambda) {list d : Node} (hlist : list ∈ lambda.children)
    (field : list.field = some .parameters) (hd : d ∈ list.children) :
    Gathers e (fun _ => True) (run typeOf p d) ∧ (d.kind = .formalParameter →
      ∀ d' ∈ d.children, Gathers e (fun _ => True) (run typeOf p d')) := by
  obtain ⟨fields, types⟩ := reads.toHides.list_plain reads.lambda_mem hlist (.inl field)
  have free' := (reads.isFree_part free hlist).child hd fields types
  constructor
  · exact reads.gathers_below hlist (Node.mem_preorder_of_child hd (Node.mem_preorder_self d)) free'
  · intro kind d' hd'
    apply reads.gathers_below hlist
    · exact Node.mem_preorder_of_child hd
        (Node.mem_preorder_of_child hd' (Node.mem_preorder_self d'))
    · exact free'.child hd' (by rw [kind]; rfl) (by rw [kind]; rfl)

variable {q name : Node} {v : VariableId} (hq : q ∈ lambda.lambdaParameters)
  (isName : q.parameterName = some name) (leads : e.bindingOf q = some (.variable v))
  (isField : (e.store.variable v).isField = false)

include leads isField

theorem gathers_offer :
    Gathers e (·.HasNamed e.store (e.store.variable v).name) (SearchM.offer (p.bindingOf q)) := by
  rw [reads.bindings, leads]
  exact Gathers.offer_named isField

include hq isName

/-- The walk at a parameter with a type collects its variable. -/
theorem gathers_parameter (kind : q.kind = .formalParameter) (named : q.isNamed = true)
    (below : ∀ d ∈ q.children, Gathers e (fun _ => True) (run typeOf p d)) :
    Gathers e (·.HasNamed e.store (e.store.variable v).name) (run typeOf p q) := by
  have early : p.startsBefore q = true :=
    reads.startsBefore hq isName (Node.mem_preorder_trans reads.lambda_mem
      (Node.mem_preorder_of_mem_lambdaParameters hq)) (Node.mem_preorder_self q)
  have carries := Gathers.carries e (e.store.variable v).name
  rw [run_eq_level typeOf p q named, level, kind]
  apply carries.left
  · rw [offerDeclared, reads.vars, early]
    exact reads.gathers_offer leads isField
  · exact carries.toComposes.anyM below

/-- The walk at the parameters collects the variable of one of them. -/
theorem gathers_parameters (free : IsFree lambda) {list : Node}
    (found : lambda.childByField .parameters = some list) :
    Gathers e (·.HasNamed e.store (e.store.variable v).name)
      (lambdaParameters p (list, spread typeOf p list)) := by
  have offered := reads.gathers_offer leads isField
  have parameter := reads.gathers_parameter hq isName leads isField
  obtain ⟨below, field⟩ := Node.mem_children_of_childByField found
  simp only [Node.lambdaParameters, found] at hq
  rw [lambdaParameters_spread]
  split at hq
  · next single =>
    rw [if_pos single, ← List.mem_singleton.1 hq]
    exact offered
  · next several =>
    obtain ⟨member, kind⟩ := List.mem_filter.1 hq
    rw [if_neg several]
    have hlist := Node.mem_preorder_of_mem_children reads.lambda_mem below
    have nodup : list.namedChildren.Nodup :=
      (reads.java.nodup_children hlist).sublist List.filter_sublist
    apply (Gathers.carries e _).anyM (List.nodup_reverse.2 nodup) (List.mem_reverse.2 member)
    · split
      · exact offered
      · next other =>
        have kind' : q.kind = .formalParameter := by
          simp only [other, Bool.false_or, Bool.and_eq_true, beq_iff_eq] at kind
          exact kind.2
        obtain ⟨hq', isNamed⟩ := List.mem_filter.1 member
        exact parameter kind' isNamed ((reads.gathers_inner free below field hq').2 kind')
    · intro d hd _
      have hd := List.mem_reverse.1 hd
      split
      · next alone =>
        exact reads.toHides.offer_name reads.lambda_mem reads.isLambda below field (.inr hd)
          (by simpa using alone)
      · exact (reads.gathers_inner free below field (List.mem_filter.1 hd).1).1

/-- The walk at the lambda expression collects the variable of the parameter. -/
theorem gathers_lambda (free : IsFree lambda) :
    Gathers e (·.HasNamed e.store (e.store.variable v).name) (run typeOf p lambda) := by
  have carries := Gathers.carries e (e.store.variable v).name
  have fits := reads.java.fits lambda reads.lambda_mem
  have inside := reads.isInside reads.lambda_mem (Node.mem_preorder_self lambda)
  rw [run_eq_level typeOf p lambda reads.named, level, reads.isLambda]
  simp only [inside, if_true]
  apply carries.right
  · apply carries.toComposes.runAt
    intro d hd
    have below := (part_field hd).1
    exact reads.gathers_below below (Node.mem_preorder_self d) (reads.isFree_part free below)
  · cases found : lambda.childByField .parameters with
    | none => simp [Node.lambdaParameters, found] at hq
    | some list =>
      obtain ⟨below, field⟩ := Node.mem_children_of_childByField found
      have isPart : part lambda .parameters = some list :=
        Node.find?_field (fits.single .parameters (by simp)) below field
      simp only [isPart, reads.vars, if_true]
      exact reads.gathers_parameters hq isName leads isField free found

/-! ## On the path to the lambda expression -/

/-- The walk collects the variable at every node of the path. -/
theorem gathers_path {m : Node} (path : m.Reaches lambda) (hm : m ∈ body.preorder)
    (free : IsFree m) (field : m.kind.isFieldDeclaration = false) :
    let K := Gathers e (·.HasNamed e.store (e.store.variable v).name)
    K (run typeOf p m) ∧
      (m ≠ lambda → ∃ d, StepsTo typeOf p (Gathers e fun _ => True) K m d) := by
  intro K
  induction path with
  | refl n => exact ⟨reads.gathers_lambda hq isName leads isField free, fun other => absurd rfl other⟩
  | @step n m lambda next path ih =>
    have hroot : n ∈ c.unit.tree.root.preorder := Node.mem_preorder_trans reads.within hm
    have hm' : m ∈ body.preorder := Node.mem_preorder_of_mem_children hm next.below
    have around : lambda ∈ n.preorder := Node.mem_preorder_of_child next.below path.mem_preorder
    have type : n.kind.isTypeDeclaration = false := by
      by_contra type
      have outside := reads.typesOff n hm (by simpa using type)
      rw [reads.isInside hroot around] at outside
      cases outside
    have below : ∀ d ∈ n.children, d ∈ body.preorder ∧ IsFree d := fun d hd =>
      ⟨Node.mem_preorder_of_mem_children hm hd, free.child hd field type⟩
    obtain ⟨gathers, onward⟩ := ih reads hq hm' (below m next.below).2
      (reads.java.not_isFieldDeclaration_of_leads hroot next)
    have step : StepsTo typeOf p (Gathers e fun _ => True) K n m :=
      { fits := reads.java.fits n hroot
        nodup := reads.java.nodup_children hroot
        leads := next
        code := reads.java.mayHoldCode_of_leads hroot next path reads.not_inert
        carried := gathers
        beside d hd _ := reads.toHides.gathers_run (below d hd).1 (below d hd).2
        late _ late := by
          have early := reads.startsBefore hq isName (Node.mem_preorder_of_mem_children hroot next.below)
            (Node.mem_preorder_trans path.mem_preorder
              (Node.mem_preorder_of_mem_lambdaParameters hq))
          rw [early] at late
          cases late }
    have hands : HandsOver typeOf p (Gathers e fun _ => True) K n m :=
      { toStepsTo := step
        inner d hd _ list d' hd' := by
          obtain ⟨fields, types⟩ := reads.toHides.list_plain hroot hd list
          exact reads.toHides.gathers_run (Node.mem_preorder_of_mem_children (below d hd).1 hd')
            ((below d hd).2.child hd' fields types)
        onward list := onward fun same => by
          rw [same, reads.isLambda] at list
          cases list
        names kind list hlist isList d here alone :=
          reads.toHides.offer_name hroot kind hlist isList here alone }
    refine ⟨?_, fun _ => ⟨m, step⟩⟩
    show Gathers e _ _
    rw [run_eq_level typeOf p n step.start_named]
    apply hands.level (Gathers.carries e _) (fun _ _ => reads.vars) field
    · intro outside
      rw [reads.isInside hroot around] at outside
      cases outside
    · intro asked
      have isVariable : n.kind.isCodeVariable = true := by
        simpa [ScopePoint.asksFor, reads.vars, reads.types] using asked
      exact reads.toHides.offer hroot free isVariable

end Reads

end LocalWalk

/-! ## What a name alone refers to -/

namespace Collection

variable {s s' : Store} {k k' : Collection} {text : String}

/-- A candidate leaves what is collected in place. -/
theorem keeps_grows (s : Store) (candidate : Option BindingId) :
    Keeps k.Grows (Request.accept s candidate) := by
  show Keeps _ (Collection.accept s candidate)
  unfold Collection.accept
  split
  · exact .pure false
  · refine (Keeps.ofExcept _).bind fun signature => Keeps.bind (.modify fun k' grows => ?_) fun _ =>
      .pure false
    split
    · exact grows
    · exact grows.trans ⟨rfl, List.prefix_append _ _⟩

/-- Where local variables were collected first, the first binding of the name is one of them. -/
theorem find?_eq_local (only : k.OnlyLocals s) (named : k.HasNamed s text) (grows : k.Grows k')
    (grown : s.Grows s') :
    ∃ v, k'.bindings.find? (fun b => s'.name b == text) = some (.variable v) ∧
      (s'.variable v).isField = false ∧ (s'.variable v).name = text := by
  obtain ⟨rest, bindings⟩ := grows.bindings
  have present : (k.bindings.find? fun b => s'.name b == text).isSome = true := by
    obtain ⟨b, hb, name⟩ := named
    obtain ⟨v, rfl, -⟩ := only.locals b hb
    rw [List.find?_isSome]
    refine ⟨_, hb, ?_⟩
    rw [beq_iff_eq, ← name]
    show (s'.variable v).name = (s.variable v).name
    rw [grown.variable_eq]
  obtain ⟨b, found⟩ := Option.isSome_iff_exists.1 present
  obtain ⟨v, rfl, isField⟩ := only.locals b (List.mem_of_find?_eq_some found)
  have isNamed : (s'.name (.variable v) == text) = true :=
    List.find?_some (p := fun b => s'.name b == text) found
  refine ⟨v, ?_, ?_, eq_of_beq isNamed⟩
  · rw [← bindings, List.find?_append, found]
    rfl
  · rw [grown.variable_eq]
    exact isField

end Collection

/-- The name is not the name of an invocation and not that of an access to a field. -/
def Node.StandsAlone (n : Node) : Prop :=
  ∀ up ∈ n.parent, (up.kind = .methodInvocation → n.isFieldOf up .name = false) ∧
    (up.kind = .fieldAccess → n.isFieldOf up .field = false)

instance (n : Node) : Decidable n.StandsAlone :=
  inferInstanceAs (Decidable (∀ up ∈ n.parent, _))

theorem Node.StandsAlone.qualifierNode {n : Node} (alone : n.StandsAlone) :
    n.qualifierNode = none := by
  cases above : n.parent with
  | none => rw [Node.qualifierNode, above, Option.bind_eq_bind, Option.bind_none]
  | some up =>
    obtain ⟨invocation, access⟩ := alone up above
    rw [Node.qualifierNode, above, Option.bind_eq_bind, Option.bind_some]
    split
    · next kind => rw [invocation kind, if_neg Bool.false_ne_true]
    · next kind => rw [access kind, if_neg Bool.false_ne_true]
    · rfl

namespace Scope

variable {typeOf : Typing} {e : Environment} {n : Node} {t : TypeId}

/-- A name alone that declares nothing refers to the first variable of this name in scope, or else
to a type. -/
theorem outcome_resolve_alone (free : e.bindingOf n = none) (alone : n.StandsAlone)
    (label : n.isLabelName = false) (around : e.enclosingType n = some t) :
    outcome (resolve typeOf n) e =
      match outcome (collected (.new (some t) .onlyVariables)
        (collectAtName typeOf n t .onlyVariables)) e with
      | (.ok available, e') =>
        match available.find? fun b => e'.store.name b == e.document.textOf n with
        | some b => (.ok (some b), e')
        | none => outcome (resolveAsType n) e'
      | (.error f, e') => (.error f, e') := by
  have unqualified : outcome (qualifierOf typeOf (some n)) e = (.ok .absent, e) := by
    rw [qualifierOf, Option.bind_some, alone.qualifierNode]
    rfl
  have unlabelled : outcome (labelEnum typeOf n) e = (.ok none, e) := by
    rw [labelEnum, label]
    rfl
  have available : outcome (declarationsAtName typeOf n .onlyVariables) e =
      outcome (collected (.new (some t) .onlyVariables)
        (collectAtName typeOf n t .onlyVariables)) e := by
    rw [declarationsAtName, outcome_bind_of_ok unlabelled]
    dsimp only
    rw [outcome_bind_of_ok (outcome_get e), around]
    dsimp only
    rw [outcome_bind_of_ok unqualified]
  have uncalled : (n.parent.filter fun parent =>
      parent.kind == .methodInvocation && n.isFieldOf parent .name) = none := by
    rw [Option.filter_eq_none_iff]
    intro up above
    simp only [Bool.and_eq_true, beq_iff_eq, not_and, Bool.not_eq_true]
    exact (alone up above).1
  have document : outcome (EnvironmentM.read Environment.document) e = (.ok e.document, e) := rfl
  rw [resolve, outcome_bind_of_ok (outcome_get e), free]
  dsimp only
  rw [outcome_bind_of_ok document, uncalled]
  dsimp only
  rw [outcome_bind_of_ok unqualified]
  dsimp only
  rw [outcome_bind, available]
  rcases outcome (collected (.new (some t) .onlyVariables)
    (collectAtName typeOf n t .onlyVariables)) e with ⟨_ | ds, e'⟩
  · rfl
  · have store : outcome (EnvironmentM.read Environment.store) e' = (.ok e'.store, e') := rfl
    dsimp only
    rw [outcome_bind_of_ok store]
    cases ds.find? fun b => e'.store.name b == e.document.textOf n <;> rfl

/-- What is collected at a name is what is collected around it, after the local declarations. -/
theorem outcome_collectAtName_of_collected {flags : Flags} {k k' : Collection}
    (collected : outcome (collectLocal typeOf n (e.context.unit.charStart n) flags) ⟨e, k⟩ =
      (.ok false, ⟨e, k'⟩)) :
    outcome (collectAtName typeOf n t flags) ⟨e, k⟩ =
      outcome (collectTypes typeOf flags t) ⟨e, k'⟩ := by
  rw [collectAtName, outcome_bind_of_ok (outcome_get _), outcome_bind_of_ok collected]
  rfl

end Scope

/-! ## Names in the bodies of lambda expressions -/

/-- A name alone in the body of a lambda expression, to which walks come from the member around the
name, and the first pass from the root. -/
structure Node.IsReadIn (n lambda body : Node) : Prop where
  kind : n.kind = .identifier
  alone : n.StandsAlone
  isLambda : lambda.kind = .lambdaExpression
  inBody : ∃ code ∈ lambda.children, code.field = some .body ∧ n ∈ code.preorder
  around : n.bodyDeclaration = some body
  path : body.Reaches lambda
  unlabelled : ∀ m ∈ lambda.preorder, m.kind = .switchLabel → n ∉ m.preorder
  stands : lambda.StandsInBodies

namespace Node.IsReadIn

variable {n lambda body : Node} (read : n.IsReadIn lambda body)

include read

theorem below : n ∈ lambda.preorder := by
  obtain ⟨code, child, -, inner⟩ := read.inBody
  exact mem_preorder_of_child child inner

theorem isLabelName : n.isLabelName = false := by
  rw [Node.isLabelName]
  cases above : n.parent with
  | none => rfl
  | some up =>
    rcases eq_or_child_of_mem_preorder read.below with here | ⟨up', hup, child⟩
    · have isLambda := read.isLambda
      rw [← here, read.kind] at isLambda
      cases isLambda
    · rw [parent_of_mem_children child] at above
      cases above
      have other : up.kind ≠ .switchLabel := fun kind =>
        read.unlabelled up hup kind (mem_preorder_of_mem_children (mem_preorder_self up) child)
      rw [Option.any_some, beq_eq_false_iff_ne.2 other, Bool.false_and]

theorem member_kind : body.kind ∈ [Kind.methodDeclaration, .constructorDeclaration,
    .compactConstructorDeclaration, .staticInitializer, .block] :=
  kind_of_isMember (bodyDeclaration_spec read.around).2.1

theorem not_isFieldDeclaration : body.kind.isFieldDeclaration = false := by
  have kinds := read.member_kind
  simp only [List.mem_cons, List.not_mem_nil, or_false] at kinds
  rcases kinds with kind | kind | kind | kind | kind <;> rw [kind] <;> rfl

/-- The lambda expression is not the root of its tree. -/
theorem ne_root {t : Tree} (hbody : body ∈ t.root.preorder) : lambda ≠ t.root := by
  rintro rfl
  have kinds := read.member_kind
  rw [mem_preorder_antisymm read.path.mem_preorder hbody, read.isLambda] at kinds
  simp at kinds

end Node.IsReadIn

namespace LocalWalk

variable {c : Context} {e₀ e : Environment} {n lambda body : Node}

/-- No member declares a field itself. -/
theorem isFree_member (shape : c.document.tree.HasLeafNames) (hbody : body ∈ c.document.root.preorder)
    (member : body.kind.isBodyDeclaration = true ∨ body.isInitializerBlock = true) :
    IsFree body where
  here isVariable := by
    have kinds := Node.kind_of_isMember member
    simp only [List.mem_cons, List.not_mem_nil, or_false] at kinds
    rcases kinds with kind | kind | kind | kind | kind <;> rw [kind] at isVariable <;>
      cases isVariable
  below := by
    rintro ⟨field, up, child, -⟩
    have hup := (Tree.mem_of_parent hbody (Node.parent_of_mem_children child)).1
    have list := ((shape.parts up hup).parameters body
      (List.mem_filter.2 ⟨child, by simp [field]⟩)).1
    have kinds := Node.kind_of_isMember member
    simp only [List.mem_cons, List.not_mem_nil, or_false] at kinds list
    rcases kinds with kind | kind | kind | kind | kind <;> simp [kind] at list

/-- The walk for the position of the name. -/
theorem reads_of_isReadIn (built : Environment.build c = .ok e₀) (grown : e₀.Grows e)
    (java : c.unit.tree.IsJava) (shape : c.document.tree.HasLeafNames)
    (order : c.unit.tree.IsInOrder) (hlambda : lambda ∈ c.document.root.preorder)
    (shown : c.unit.ShowsNames lambda) (read : n.IsReadIn lambda body) (typeOf : Typing) :
    ∃ code, Reads typeOf ⟨e.context.unit, e.bindingOf, e.context.unit.charStart n, .onlyVariables⟩
      c e₀ e body lambda code n := by
  obtain ⟨code, child, field, inBody⟩ := read.inBody
  have context : e.context = c := by
    rw [grown.context, (Environment.build_ready built).sound.context]
  have hn : n ∈ c.document.root.preorder := Node.mem_preorder_trans hlambda read.below
  obtain ⟨climbed, member, noType⟩ := Node.bodyDeclaration_spec read.around
  have hbody : body ∈ c.document.root.preorder := Tree.mem_of_climb hn climbed
  have leaf : n.children = [] := List.isEmpty_iff.1 (shape.leaves n hn (by simp [read.kind]))
  have place : ScopePoint.IsAt ⟨e.context.unit, e.bindingOf, e.context.unit.charStart n,
      .onlyVariables⟩ c.unit n :=
    { unit := by rw [context]
      member := hn
      position := by rw [context]
      shown := shown n read.below (by simp [read.kind])
      leaf := leaf }
  have holds : ∀ m ∈ body.preorder, ScopePoint.isInside ⟨e.context.unit, e.bindingOf,
      e.context.unit.charStart n, .onlyVariables⟩ m = true → n ∈ m.preorder := fun m hm =>
    (place.isInside_iff java order (Node.mem_preorder_trans hbody hm)).1
  refine ⟨code, ⟨⟨built, grown, java, shape, hbody, rfl, rfl, rfl, ?_, ?_⟩, order, shown, place,
    member, read.path, read.isLambda, child, field, inBody⟩⟩
  · intro m hm type
    by_contra inside
    rw [noType m hm (holds m hm (by simpa using inside))] at type
    cases type
  · intro m hm kind
    by_contra inside
    have around := holds m hm (by simpa using inside)
    have hm' : m ∈ c.document.root.preorder := Node.mem_preorder_trans hbody hm
    rcases Node.mem_preorder_or hlambda hm' read.below around with inner | outer
    · exact read.unlabelled m inner kind around
    · -- a path does not go through labels
      have before : m ≠ lambda := by
        rintro rfl
        have isLambda := read.isLambda
        rw [kind] at isLambda
        cases isLambda
      have passable := read.path.passable hm outer before
      rw [kind] at passable
      cases passable

end LocalWalk

namespace Scope

variable {c : Context} {e₀ e : Environment} {n lambda body q name : Node} {t : TypeId}

/-- In a Java tree whose parts follow each other, a name alone in the body of a lambda expression
with the text of a parameter refers to a variable that is no field. The search for it collects such a
variable before it comes to any type, and fails only where the search of the types around does. -/
theorem resolve_parameter (built : Environment.build c = .ok e₀) (grown : e₀.Grows e)
    (java : c.unit.tree.IsJava) (shape : c.document.tree.HasLeafNames)
    (order : c.unit.tree.IsInOrder) (hlambda : lambda ∈ c.document.root.preorder)
    (shown : c.unit.ShowsNames lambda) (read : n.IsReadIn lambda body)
    (free : e.bindingOf n = none) (around : e.enclosingType n = some t)
    (parameter : q ∈ lambda.lambdaParameters) (isName : q.parameterName = some name)
    (same : c.document.textOf name = c.document.textOf n) :
    ∃ k, outcome (collectLocal expressionType n (e.context.unit.charStart n) .onlyVariables)
        ⟨e, Collection.new (some t) .onlyVariables⟩ = (.ok false, ⟨e, k⟩) ∧
      match outcome (collectTypes expressionType .onlyVariables t) ⟨e, k⟩ with
      | (.ok _, ⟨e', _⟩) => ∃ v,
        outcome (resolve expressionType n) e = (.ok (some (.variable v)), e') ∧
          (e'.store.variable v).isField = false ∧
          (e'.store.variable v).name = c.document.textOf n
      | (.error f, ⟨e', _⟩) => outcome (resolve expressionType n) e = (.error f, e') := by
  obtain ⟨code, reads⟩ :=
    LocalWalk.reads_of_isReadIn built grown java shape order hlambda shown read expressionType
  obtain ⟨v, leads, isField, named⟩ := Environment.exists_variable_of_parameter built java shape
    hlambda read.stands (read.ne_root reads.within) read.isLambda parameter isName
  have same' := grown.store.variable_eq v
  rw [← grown.bindingOf] at leads
  rw [← same'] at isField named
  have free' := LocalWalk.isFree_member shape reads.within reads.member
  have gathers := (reads.gathers_path parameter isName leads isField read.path
    (Node.mem_preorder_self body) free' read.not_isFieldDeclaration).1
  rw [named, same] at gathers
  obtain ⟨k, walked, only, grows, has⟩ := gathers (.new (some t) .onlyVariables)
    (Collection.onlyLocals_new _ _ _)
  have collected : outcome (collectLocal expressionType n (e.context.unit.charStart n)
      .onlyVariables) ⟨e, Collection.new (some t) .onlyVariables⟩ = (.ok false, ⟨e, k⟩) := by
    have asked : (Flags.onlyVariables.vars || Flags.onlyVariables.types) = true := rfl
    rw [collectLocal, if_pos asked, read.around]
    exact walked
  refine ⟨k, collected, ?_⟩
  have searched := outcome_collectAtName_of_collected (t := t) collected
  have kept := keeps_collectTypes (K := k.Grows) Collection.keeps_grows
    (keeps_expressionType (I := e.Grows)) .onlyVariables t ⟨e, k⟩ ⟨.refl e, .refl k⟩
  have document : e.document = c.document := by
    rw [Environment.document, grown.context, (Environment.build_ready built).sound.context]
  rw [outcome_resolve_alone free read.alone read.isLabelName around, document]
  rcases found : outcome (collectTypes expressionType .onlyVariables t) ⟨e, k⟩ with
    ⟨f | stopped, e', k'⟩
  · rw [found] at searched
    rw [outcome_collected_of_error searched]
  · rw [found] at searched kept
    obtain ⟨grown', grows'⟩ := kept
    have unchecked : k'.flags.checkVisibility = false := by
      rw [grows'.flags, grows.flags]
      rfl
    obtain ⟨w, first, isLocal, isNamed⟩ := Collection.find?_eq_local only has grows' grown'.store
    rw [outcome_collected searched, Collection.outcome_requested_of_unchecked unchecked]
    dsimp only
    rw [first]
    exact ⟨w, rfl, isLocal, isNamed⟩

/-! ## A parameter with the name of a field -/

/-- `class A { int x; void m()`, then the block of the method, then ` }`. -/
def fieldBesideBlock (block : String) (stop : Nat) (statement : Tree) : Context :=
  .ofFile ("class A \x7b int x; void m() " ++ block ++ " \x7d") <|
    .named .program none 0 (stop + 2) [
      .named .classDeclaration none 0 (stop + 2) [
        .token "class" 0, .named .identifier (some .name) 6 7 [],
        .named .classBody (some .body) 8 (stop + 2) [
          .token "\x7b" 8,
          .named .fieldDeclaration none 10 16 [
            .named .integralType (some .type) 10 13 [.token "int" 10],
            .named .variableDeclarator (some .declarator) 14 15 [
              .named .identifier (some .name) 14 15 []],
            .token ";" 15],
          .named .methodDeclaration none 17 stop [
            .named .voidType (some .type) 17 21 [], .named .identifier (some .name) 22 23 [],
            .named .formalParameters (some .parameters) 23 25 [.token "(" 23, .token ")" 24],
            .named .block (some .body) 26 stop [
              .token "\x7b" 26, statement, .token "\x7d" (stop - 1)]],
          .token "\x7d" (stop + 1)]]]

/-- `class A { int x; void m() { F f = x -> x; } }` -/
def lambdaInStatement : Context :=
  fieldBesideBlock "\x7b F f = x -> x; \x7d" 43 <|
    .named .localVariableDeclaration none 28 41 [
      .named .typeIdentifier (some .type) 28 29 [],
      .named .variableDeclarator (some .declarator) 30 40 [
        .named .identifier (some .name) 30 31 [], .token "=" 32,
        .named .lambdaExpression (some .value) 34 40 [
          .named .identifier (some .parameters) 34 35 [], .token "->" 36,
          .named .identifier (some .body) 39 40 []]],
      .token ";" 40]

/-- `class A { int x; void m() { for (; t(x -> x); ) { } } }` -/
def lambdaInCondition : Context :=
  fieldBesideBlock "\x7b for (; t(x -> x); ) \x7b \x7d \x7d" 53 <|
    .named .forStatement none 28 51 [
      .token "for" 28, .token "(" 32, .token ";" 33,
      .named .methodInvocation (some .condition) 35 44 [
        .named .identifier (some .name) 35 36 [],
        .named (.other "argument_list") (some .arguments) 36 44 [
          .token "(" 36,
          .named .lambdaExpression none 37 43 [
            .named .identifier (some .parameters) 37 38 [], .token "->" 39,
            .named .identifier (some .body) 42 43 []],
          .token ")" 43]],
      .token ";" 44, .token ")" 46,
      .named .block (some .body) 48 51 [.token "\x7b" 48, .token "\x7d" 50]]

/-- The first node of a kind. -/
def firstNode (c : Context) (kind : Kind) : Node :=
  (c.root.preorder.find? (·.kind == kind)).getD c.root

/-- The part of the first lambda expression with a field. -/
def lambdaPart (c : Context) (f : Field) : Node :=
  ((firstNode c .lambdaExpression).childByField f).getD c.root

theorem lambdaInStatement_path :
    (firstNode lambdaInStatement .methodDeclaration).Reaches
      (firstNode lambdaInStatement .lambdaExpression) := by
  have method : (firstNode lambdaInStatement .methodDeclaration).Leads
      (firstNode lambdaInStatement .block) :=
    ⟨List.mem_of_getElem? (i := 3) rfl, by decide, by decide⟩
  have block : (firstNode lambdaInStatement .block).Leads
      (firstNode lambdaInStatement .localVariableDeclaration) :=
    ⟨List.mem_of_getElem? (i := 1) rfl, by decide, by decide⟩
  have declaration : (firstNode lambdaInStatement .localVariableDeclaration).Leads
      ((firstNode lambdaInStatement .lambdaExpression).parent.getD lambdaInStatement.root) :=
    ⟨List.mem_of_getElem? (i := 1) rfl, by decide, by decide⟩
  have declarator : ((firstNode lambdaInStatement .lambdaExpression).parent.getD
      lambdaInStatement.root).Leads (firstNode lambdaInStatement .lambdaExpression) :=
    ⟨List.mem_of_getElem? (i := 2) rfl, by decide, by decide⟩
  exact .step method (.step block (.step declaration (.step declarator (.refl _))))

theorem lambdaInStatement_isReadIn :
    (lambdaPart lambdaInStatement .body).IsReadIn (firstNode lambdaInStatement .lambdaExpression)
      (firstNode lambdaInStatement .methodDeclaration) where
  kind := by decide
  alone := by decide
  isLambda := by decide
  inBody := ⟨_, List.mem_of_getElem? (i := 2) rfl, rfl, Node.mem_preorder_self _⟩
  around := rfl
  path := lambdaInStatement_path
  unlabelled m hm kind := by
    have none : ∀ m ∈ (firstNode lambdaInStatement .lambdaExpression).preorder,
        m.kind ≠ .switchLabel := by decide
    exact absurd kind (none m hm)
  stands := by decide

set_option maxRecDepth 100000 in
theorem lambdaInStatement_computed :
    (match Environment.build lambdaInStatement with
    | .error _ => none
    | .ok e => some (e.bindingOf (lambdaPart lambdaInStatement .body),
        e.enclosingType (lambdaPart lambdaInStatement .body))) = some (none, some ⟨0⟩) := by
  decide +kernel

theorem resolve_parameter_lambdaInStatement :
    ∃ e, Environment.build lambdaInStatement = .ok e ∧ lambdaInStatement.unit.tree.IsJava ∧
      lambdaInStatement.document.tree.HasLeafNames ∧ lambdaInStatement.unit.tree.IsInOrder ∧
      firstNode lambdaInStatement .lambdaExpression ∈ lambdaInStatement.document.root.preorder ∧
      lambdaInStatement.unit.ShowsNames (firstNode lambdaInStatement .lambdaExpression) ∧
      (lambdaPart lambdaInStatement .body).IsReadIn
        (firstNode lambdaInStatement .lambdaExpression)
        (firstNode lambdaInStatement .methodDeclaration) ∧
      e.bindingOf (lambdaPart lambdaInStatement .body) = none ∧
      e.enclosingType (lambdaPart lambdaInStatement .body) = some ⟨0⟩ ∧
      lambdaPart lambdaInStatement .parameters ∈
        (firstNode lambdaInStatement .lambdaExpression).lambdaParameters ∧
      (lambdaPart lambdaInStatement .parameters).parameterName =
        some (lambdaPart lambdaInStatement .parameters) ∧
      lambdaInStatement.document.textOf (lambdaPart lambdaInStatement .parameters) =
        lambdaInStatement.document.textOf (lambdaPart lambdaInStatement .body) ∧
      ∃ k, outcome (collectLocal expressionType (lambdaPart lambdaInStatement .body)
            (e.context.unit.charStart (lambdaPart lambdaInStatement .body)) .onlyVariables)
          ⟨e, Collection.new (some ⟨0⟩) .onlyVariables⟩ = (.ok false, ⟨e, k⟩) ∧
        match outcome (collectTypes expressionType .onlyVariables ⟨0⟩) ⟨e, k⟩ with
        | (.ok _, ⟨e', _⟩) => ∃ v,
          outcome (resolve expressionType (lambdaPart lambdaInStatement .body)) e =
              (.ok (some (.variable v)), e') ∧
            (e'.store.variable v).isField = false ∧
            (e'.store.variable v).name =
              lambdaInStatement.document.textOf (lambdaPart lambdaInStatement .body)
        | (.error f, ⟨e', _⟩) =>
          outcome (resolve expressionType (lambdaPart lambdaInStatement .body)) e =
            (.error f, e') := by
  have computed := lambdaInStatement_computed
  split at computed
  · cases computed
  · next e built =>
    obtain ⟨free, around⟩ := Prod.mk.inj (Option.some.inj computed)
    have java : lambdaInStatement.unit.tree.IsJava := by decide
    have shape : lambdaInStatement.document.tree.HasLeafNames := by decide
    have order : lambdaInStatement.unit.tree.IsInOrder := by decide
    have hlambda : firstNode lambdaInStatement .lambdaExpression ∈
        lambdaInStatement.document.root.preorder :=
      List.mem_of_find?_eq_some (p := (·.kind == .lambdaExpression)) rfl
    have shown : lambdaInStatement.unit.ShowsNames
        (firstNode lambdaInStatement .lambdaExpression) := by decide
    have parameter : lambdaPart lambdaInStatement .parameters ∈
        (firstNode lambdaInStatement .lambdaExpression).lambdaParameters :=
      List.mem_of_getElem? (i := 0) rfl
    have isName : (lambdaPart lambdaInStatement .parameters).parameterName =
        some (lambdaPart lambdaInStatement .parameters) := rfl
    have same : lambdaInStatement.document.textOf (lambdaPart lambdaInStatement .parameters) =
        lambdaInStatement.document.textOf (lambdaPart lambdaInStatement .body) := by decide
    exact ⟨e, built, java, shape, order, hlambda, shown, lambdaInStatement_isReadIn, free, around,
      parameter, isName, same, resolve_parameter built (.refl e) java shape order hlambda shown
        lambdaInStatement_isReadIn free around parameter isName same⟩

set_option maxRecDepth 100000 in
theorem lambdaInCondition_computed :
    (match Environment.build lambdaInCondition with
    | .error _ => none
    | .ok e =>
      let n := lambdaPart lambdaInCondition .body
      match outcome (resolve expressionType n) e with
      | (.ok (some (.variable v)), e') =>
        some (e.bindingOf n, (e'.store.variable v).isField)
      | _ => none) = some (none, true) := by
  decide +kernel

/-- A name in a lambda expression in the condition of a `for` statement refers to the field although
the parameter has its name. -/
theorem lambdaInCondition_refers_to_field :
    ¬ ∀ (c : Context) (e : Environment) (lambda n q name : Node),
      Environment.build c = .ok e → c.unit.tree.IsJava → c.document.tree.HasLeafNames →
        c.unit.tree.IsInOrder → lambda ∈ c.document.root.preorder →
        lambda.kind = .lambdaExpression → n.kind = .identifier →
        (∃ code ∈ lambda.children, code.field = some .body ∧ n ∈ code.preorder) →
        n.StandsAlone → n.isLabelName = false → e.bindingOf n = none →
        (∀ m ∈ lambda.preorder, m.kind.isTypeBody = false) →
        q ∈ lambda.lambdaParameters → q.parameterName = some name →
        c.document.textOf name = c.document.textOf n →
          ∃ v e', outcome (resolve expressionType n) e = (.ok (some (.variable v)), e') ∧
            (e'.store.variable v).isField = false := by
  intro claim
  have computed := lambdaInCondition_computed
  split at computed
  · cases computed
  · next e built =>
    dsimp only at computed
    split at computed
    · next v e' resolved =>
      obtain ⟨free, isField⟩ := Prod.mk.inj (Option.some.inj computed)
      have plain : ∀ m ∈ (firstNode lambdaInCondition .lambdaExpression).preorder,
          m.kind.isTypeBody = false := by decide
      obtain ⟨w, e'', resolved', notField⟩ := claim lambdaInCondition e
        (firstNode lambdaInCondition .lambdaExpression) (lambdaPart lambdaInCondition .body)
        (lambdaPart lambdaInCondition .parameters) (lambdaPart lambdaInCondition .parameters) built
        (by decide) (by decide) (by decide)
        (List.mem_of_find?_eq_some (p := (·.kind == .lambdaExpression)) rfl) (by decide)
        (by decide)
        ⟨_, List.mem_of_getElem? (i := 2) rfl, rfl, Node.mem_preorder_self _⟩
        (by decide) (by decide) free plain
        (List.mem_of_getElem? (i := 0) rfl) rfl (by decide)
      rw [resolved] at resolved'
      cases resolved'
      rw [isField] at notField
      cases notField
    · cases computed

end Scope

end JavaScope
