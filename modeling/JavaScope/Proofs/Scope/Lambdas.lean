import JavaScope.Proofs.Environment.Visits
import JavaScope.Proofs.Scope.Away
import JavaScope.Proofs.Scope.Requests
import JavaScope.Proofs.Unit.Order

/-!
# Walks to the parameters of a lambda expression

A walk over a member, for the position of a name in it, collects no fields, and comes to every lambda
expression around the name that is reached without type bodies, annotations, labels and the heads of
`for` statements. So it collects a variable with the name of each parameter there.
-/

namespace JavaScope

/-! ## Collections of local variables -/

/-- The binding is a variable that is no field. -/
def Store.IsLocal (s : Store) (b : BindingId) : Prop :=
  ∃ v, b = .variable v ∧ (s.variable v).isField = false

namespace Collection

/-- All bindings of the collection are variables that are no fields, and no other signatures are
known. -/
structure OnlyLocals (s : Store) (k : Collection) : Prop where
  locals : ∀ b ∈ k.bindings, s.IsLocal b
  known : ∀ x ∈ k.signatures, ∃ b ∈ k.bindings, s.signature b = .ok x

/-- The second collection has the settings of the first one, and more bindings at its end. -/
structure Grows (k k' : Collection) : Prop where
  flags : k'.flags = k.flags
  bindings : k.bindings <+: k'.bindings

/-- The collection has a binding of this name. -/
def HasNamed (s : Store) (text : String) (k : Collection) : Prop :=
  ∃ b ∈ k.bindings, s.name b = text

variable {s : Store} {k k' : Collection} {text : String}

theorem Grows.refl (k : Collection) : k.Grows k :=
  ⟨rfl, List.prefix_rfl⟩

theorem Grows.trans {k'' : Collection} (h : k.Grows k') (h' : k'.Grows k'') : k.Grows k'' :=
  ⟨h'.flags.trans h.flags, h.bindings.trans h'.bindings⟩

theorem HasNamed.mono (h : k.HasNamed s text) (grows : k.Grows k') : k'.HasNamed s text := by
  obtain ⟨b, hb, name⟩ := h
  exact ⟨b, grows.bindings.subset hb, name⟩

theorem onlyLocals_new (s : Store) (parentType : Option TypeId) (flags : Flags) :
    (new parentType flags).OnlyLocals s :=
  ⟨nofun, nofun⟩

/-- A local variable is collected unless the collection has one of the same name. -/
theorem accept_local {v : VariableId} (isLocal : (s.variable v).isField = false)
    (only : k.OnlyLocals s) :
    ∃ k', outcome (Request.accept s (some (.variable v))) k = (.ok false, k') ∧
      k'.OnlyLocals s ∧ k.Grows k' ∧ k'.HasNamed s (s.variable v).name := by
  rw [outcome_accept_collection]
  refine ⟨_, rfl, ?_⟩
  split
  · next known =>
    -- a local variable with the same signature has the same name
    obtain ⟨b, hb, same⟩ := only.known _ (by simpa using known)
    refine ⟨only, .refl k, b, hb, ?_⟩
    obtain ⟨w, rfl, -⟩ := only.locals b hb
    have texts : "V" ++ (s.variable w).name = "V" ++ (s.variable v).name := Except.ok.inj same
    exact (String.append_right_inj "V").1 texts
  · refine ⟨⟨?_, ?_⟩, ⟨rfl, List.prefix_append _ _⟩, .variable v,
      List.mem_append_right _ (List.mem_singleton_self _), rfl⟩
    · intro b hb
      rcases List.mem_append.1 hb with hb | hb
      · exact only.locals b hb
      · exact ⟨v, List.mem_singleton.1 hb, isLocal⟩
    · intro x hx
      rcases List.mem_cons.1 hx with rfl | hx
      · exact ⟨.variable v, List.mem_append_right _ (List.mem_singleton_self _), rfl⟩
      · obtain ⟨b, hb, signature⟩ := only.known x hx
        exact ⟨b, List.mem_append_left _ hb, signature⟩

end Collection

/-! ## Searches that collect local variables -/

theorem SearchM.outcome_offer {σ : Type} [Request σ] (candidate : Option BindingId)
    (e : Environment) (r : σ) : outcome (SearchM.offer candidate) ⟨e, r⟩ =
      ((outcome (Request.accept e.store candidate) r).1,
        ⟨e, (outcome (Request.accept e.store candidate) r).2⟩) := rfl

/-- From the environment the search goes on collecting local variables, leaves the environment as it
is, and ends with a collection that has `Q`. -/
def Gathers (e : Environment) (Q : Collection → Prop) (search : SearchM Collection Bool) : Prop :=
  ∀ k, k.OnlyLocals e.store → ∃ k', outcome search ⟨e, k⟩ = (.ok false, ⟨e, k'⟩) ∧
    k'.OnlyLocals e.store ∧ k.Grows k' ∧ Q k'

namespace Gathers

variable {e : Environment} {Q : Collection → Prop} {text : String}

theorem composes (e : Environment) : LocalWalk.Composes (Gathers e fun _ => True) where
  pure := fun k only => ⟨k, rfl, only, .refl k, trivial⟩
  orElse h h' k only := by
    obtain ⟨k₁, first, only, grows, -⟩ := h k only
    obtain ⟨k₂, second, only, grows', -⟩ := h' k₁ only
    exact ⟨k₂, (outcome_bind_of_ok first _).trans second, only, grows.trans grows', trivial⟩

theorem carries (e : Environment) (text : String) :
    LocalWalk.Carries (Gathers e fun _ => True) (Gathers e (·.HasNamed e.store text)) where
  toComposes := composes e
  left h h' k only := by
    obtain ⟨k₁, first, only, grows, named⟩ := h k only
    obtain ⟨k₂, second, only, grows', -⟩ := h' k₁ only
    exact ⟨k₂, (outcome_bind_of_ok first _).trans second, only, grows.trans grows',
      named.mono grows'⟩
  right h h' k only := by
    obtain ⟨k₁, first, only, grows, -⟩ := h k only
    obtain ⟨k₂, second, only, grows', named⟩ := h' k₁ only
    exact ⟨k₂, (outcome_bind_of_ok first _).trans second, only, grows.trans grows', named⟩

/-- What is offered is a local variable, or nothing. -/
theorem offer {candidate : Option BindingId} (isLocal : ∀ b ∈ candidate, e.store.IsLocal b) :
    Gathers e (fun _ => True) (SearchM.offer candidate) := by
  intro k only
  cases candidate with
  | none => exact ⟨k, rfl, only, .refl k, trivial⟩
  | some b =>
    obtain ⟨v, rfl, isField⟩ := isLocal b rfl
    obtain ⟨k', accepted, only', grows, -⟩ := Collection.accept_local isField only
    refine ⟨k', ?_, only', grows, trivial⟩
    rw [SearchM.outcome_offer, accepted]

/-- A local variable is offered by its name. -/
theorem offer_named {v : VariableId} (isField : (e.store.variable v).isField = false) :
    Gathers e (·.HasNamed e.store (e.store.variable v).name)
      (SearchM.offer (some (.variable v))) := by
  intro k only
  obtain ⟨k', accepted, only', grows, named⟩ := Collection.accept_local isField only
  refine ⟨k', ?_, only', grows, named⟩
  rw [SearchM.outcome_offer, accepted]

end Gathers

namespace LocalWalk

/-! ## Walks for the position of a name -/

section Level

variable {σ : Type} [Request σ] {typeOf : Typing} {p : ScopePoint} {n : Node}

/-- Walks do not enter the declarations of fields. -/
theorem level_of_isFieldDeclaration (field : n.kind.isFieldDeclaration = true) :
    level (σ := σ) typeOf p n = return false := by
  unfold level
  cases kind : n.kind <;> rw [kind] at field <;> first | rfl | cases field

/-- A walk that is not asked for types does not enter a type that does not hold the position. -/
theorem level_of_isTypeDeclaration (type : n.kind.isTypeDeclaration = true)
    (types : p.flags.types = false) (off : p.isInside n = false) :
    level (σ := σ) typeOf p n = return false := by
  unfold level
  cases kind : n.kind <;> rw [kind] at type <;>
    first
    | exact absurd type Bool.false_ne_true
    | simp only [types, off, Bool.false_and, Bool.false_eq_true, if_false]

end Level

/-- A walk over a member, for the position of a name in it, that is asked for variables only. Below
the member neither a type nor a label holds the position, and no node that holds it declares
fields. -/
structure Hides (typeOf : Typing) (p : ScopePoint) (c : Context) (e₀ e : Environment)
    (body : Node) : Prop where
  built : Environment.build c = .ok e₀
  grown : e₀.Grows e
  java : c.unit.tree.IsJava
  shape : c.document.tree.HasLeafNames
  within : body ∈ c.unit.tree.root.preorder
  bindings : p.bindingOf = e.bindingOf
  vars : p.flags.vars = true
  types : p.flags.types = false
  typesOff : ∀ m ∈ body.preorder, m.kind.isTypeDeclaration = true → p.isInside m = false
  labelsOff : ∀ m ∈ body.preorder, m.kind = .switchLabel → p.isInside m = false

/-- No field is declared here, and not directly below unless by the declaration of fields. -/
structure IsFree (n : Node) : Prop where
  here : n.kind.isCodeVariable = true → ¬ n.DeclaresField
  below : ¬ n.IsRecordHeader

/-- Below a node that declares neither fields nor types itself no field is declared directly. -/
theorem IsFree.child {n d : Node} (free : IsFree n) (hd : d ∈ n.children)
    (field : n.kind.isFieldDeclaration = false) (type : n.kind.isTypeDeclaration = false) :
    IsFree d where
  here isVariable := by
    rintro (kind | ⟨up, declarator, isField⟩ | ⟨-, list, member, header⟩)
    · rw [kind] at isVariable
      cases isVariable
    · rw [Node.eq_of_mem_children (List.mem_filter.1 declarator).1 hd, field] at isField
      cases isField
    · rw [Node.eq_of_mem_children member hd] at header
      exact free.below header
  below := by
    rintro ⟨-, up, member, kind⟩
    rw [Node.eq_of_mem_children member hd] at kind
    rw [kind] at type
    cases type

namespace Hides

variable {typeOf : Typing} {p : ScopePoint} {c : Context} {e₀ e : Environment} {body n : Node}
  (hides : Hides typeOf p c e₀ e body)

include hides

/-- What the environment that was built tells of a variable still holds. -/
theorem isLocal_of_variable {b : BindingId} (kind : b.kind = .variable)
    (isLocal : ∀ v, b = .variable v → (e₀.store.variable v).isField = false) :
    e.store.IsLocal b := by
  cases b with
  | «variable» v => exact ⟨v, rfl, by rw [hides.grown.store.variable_eq]; exact isLocal v rfl⟩
  | type t => cases kind
  | method m => cases kind

/-- What a node of code declares for the walk is no field. -/
theorem offer (hn : n ∈ c.unit.tree.root.preorder) (free : IsFree n)
    (isVariable : n.kind.isCodeVariable = true) :
    Gathers e (fun _ => True) (SearchM.offer (p.bindingOf n)) := by
  apply Gathers.offer
  intro b hb
  rw [hides.bindings, hides.grown.bindingOf] at hb
  obtain ⟨-, -, -, kind⟩ :=
    Environment.declaredAt_of_isCodeVariable hides.built hides.shape hn isVariable hb
  apply hides.isLocal_of_variable kind
  rintro v rfl
  exact Environment.isField_of_isCodeVariable hides.built hides.shape hn hb isVariable
    (free.here isVariable)

/-- A name alone among the parameters of a lambda expression is no field. -/
theorem offer_name {list d : Node} (hn : n ∈ c.unit.tree.root.preorder)
    (kind : n.kind = .lambdaExpression) (below : list ∈ n.children)
    (field : list.field = some .parameters) (here : d = list ∨ d ∈ list.namedChildren)
    (name : d.kind = .identifier) : Gathers e (fun _ => True) (SearchM.offer (p.bindingOf d)) := by
  have hlist : list ∈ c.unit.tree.root.preorder := Node.mem_preorder_of_mem_children hn below
  have here' : d = list ∨ d ∈ list.children := here.imp_right fun hd => (List.mem_filter.1 hd).1
  have hd : d ∈ c.unit.tree.root.preorder := by
    rcases here' with rfl | inner
    · exact hlist
    · exact Node.mem_preorder_of_mem_children hlist inner
  have among := hides.shape.kind_above_parameter hn kind below field here'
  apply Gathers.offer
  intro b hb
  rw [hides.bindings, hides.grown.bindingOf] at hb
  apply hides.isLocal_of_variable
  · refine Environment.kind_of_identifier hides.built hides.shape hd name ?_ hb
    intro up above
    have kinds := among up above
    simp only [List.mem_cons, List.not_mem_nil, or_false] at kinds
    rcases kinds with kind | kind | kind <;>
      simp [kind, Node.DeclaresItself, Node.isAnonymousBody, Kind.isTypeDeclaration,
        Kind.isMethodDeclaration]
  · rintro v rfl
    exact Environment.isField_of_identifier hides.built hides.shape hd hb name among

/-- The kinds of lists are no declarations. -/
theorem list_plain {d : Node} (hn : n ∈ c.unit.tree.root.preorder) (hd : d ∈ n.children)
    (list : d.IsLookedThrough) :
    d.kind.isFieldDeclaration = false ∧ d.kind.isTypeDeclaration = false := by
  rcases list with field | kind | kind
  · have isList := ((hides.shape.parts n hn).parameters d
      (List.mem_filter.2 ⟨hd, by simp [field]⟩)).1
    simp only [List.mem_cons, List.not_mem_nil, or_false] at isList
    rcases isList with kind | kind | kind <;> rw [kind] <;> exact ⟨rfl, rfl⟩
  · rw [kind]
    exact ⟨rfl, rfl⟩
  · rw [kind]
    exact ⟨rfl, rfl⟩

/-- Outside of declarations of types and fields, a level collects no fields if the walks below do
not. -/
theorem gathers_level (hn : n ∈ body.preorder) (free : IsFree n)
    (field : n.kind.isFieldDeclaration = false) (type : n.kind.isTypeDeclaration = false)
    (h : ∀ d ∈ n.children, ∀ m ∈ d.preorder, IsFree m → Gathers e (fun _ => True) (run typeOf p m)) :
    Gathers e (fun _ => True) (level typeOf p n) := by
  have hroot : n ∈ c.unit.tree.root.preorder := Node.mem_preorder_trans hides.within hn
  have free' : ∀ d ∈ n.children, IsFree d := fun d hd => free.child hd field type
  have inner : ∀ d ∈ n.children, d.IsLookedThrough → ∀ d' ∈ d.children,
      Gathers e (fun _ => True) (run typeOf p d') := by
    intro d hd list d' hd'
    obtain ⟨field', type'⟩ := hides.list_plain hroot hd list
    exact h d hd d' (Node.mem_preorder_of_child hd' (Node.mem_preorder_self d'))
      ((free' d hd).child hd' field' type')
  apply (Gathers.composes e).level
  · exact fun d hd => h d hd d (Node.mem_preorder_self d) (free' d hd)
  · exact inner
  · intro asked _
    have isVariable : n.kind.isCodeVariable = true := by
      simpa [ScopePoint.asksFor, hides.vars, hides.types] using asked
    exact hides.offer hroot free isVariable
  · intro kind _ inside
    rw [hides.labelsOff n hn kind] at inside
    cases inside
  · intro kind _ _ list below listField
    exact (Gathers.composes e).lambdaParameters
      (fun d here name => hides.offer_name hroot kind below listField here name)
      (inner list below (.inl listField))

/-- The walk at a node collects no fields. -/
theorem gathers_run (hn : n ∈ body.preorder) (free : IsFree n) :
    Gathers e (fun _ => True) (run typeOf p n) := by
  induction n using Node.induction_below with
  | h n ih =>
    have below : ∀ d ∈ n.children, ∀ m ∈ d.preorder, IsFree m →
        Gathers e (fun _ => True) (run typeOf p m) := fun d hd m hm =>
      ih d hd m hm (Node.mem_preorder_trans hn (Node.mem_preorder_of_child hd hm))
    by_cases named : n.isNamed = true
    · rw [run_eq_level typeOf p n named]
      cases field : n.kind.isFieldDeclaration with
      | true =>
        rw [level_of_isFieldDeclaration field]
        exact (Gathers.composes e).pure
      | false =>
        cases type : n.kind.isTypeDeclaration with
        | true =>
          -- a type that does not hold the position is not entered
          rw [level_of_isTypeDeclaration type hides.types (hides.typesOff n hn type)]
          exact (Gathers.composes e).pure
        | false => exact hides.gathers_level hn free field type below
    · rw [run_of_not_named typeOf p n (by simpa using named)]
      exact (Gathers.composes e).pure

end Hides

end LocalWalk

end JavaScope
