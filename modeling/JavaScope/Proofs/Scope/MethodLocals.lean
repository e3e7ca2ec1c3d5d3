import JavaScope.Proofs.Environment.Owners
import JavaScope.Proofs.Environment.Visits
import JavaScope.Proofs.Scope.Combined
import JavaScope.Proofs.Scope.Locals
import JavaScope.Proofs.Unit.Text

/-!
# The locals of a method at its location

At the location of a method, a query looks into the block around the nearest statement that holds the
method, if there is one within the member around, and into the body of the method otherwise. So the
variables that the body declares are reported, unless the method belongs to an anonymous class in a
statement: then its body is never looked into.
-/

namespace JavaScope

/-- A binding with the signature of a variable is a variable of the same name. -/
theorem Store.exists_variable_of_signature_eq {s s' : Store} {b : BindingId} {w : VariableId}
    {x : String} (h : s.signature b = .ok x) (h' : s'.signature (.variable w) = .ok x) :
    ∃ w', b = .variable w' ∧ (s.variable w').name = (s'.variable w).name := by
  obtain ⟨rest, text, -⟩ := signature_eq_ok h
  obtain ⟨rest', text', -⟩ := signature_eq_ok h'
  rw [text, List.cons.injEq] at text'
  have letter := text'.1
  cases b with
  | type t => cases letter
  | method m => cases letter
  | «variable» w' =>
    have same := Except.ok.inj (h.trans h'.symm)
    refine ⟨w', rfl, String.toList_injective ?_⟩
    have chars := congrArg String.toList same
    simpa using chars

namespace Scope

variable {e e₁ e₂ : Environment}

/-! ## What is collected of a list of uses -/

/-- The use fails where it is resolved and offered in an environment that has grown from this one. -/
def Use.Fails (e : Environment) (u : Use) (f : Fault) : Prop :=
  ∃ e₁ k, e.Grows e₁ ∧ (outcome (u.offer e.bindingOf) (⟨e₁, k⟩ : Searching Collection)).1 = .error f

/-- The bindings come from the uses, and have a variable of the name of every variable that these
declare. -/
structure Lists (e : Environment) (uses : List Use) (ds : List BindingId) : Prop where
  origin : ∀ d ∈ ds, ∃ u ∈ uses, ∃ e', u.Finds e (some d) e'
  named : ∀ n w, .declaration n ∈ uses → e.bindingOf n = some (.variable w) →
    ∃ w', .variable w' ∈ ds ∧ (e.store.variable w').name = (e.store.variable w).name

/-- The collection lists the uses, and has a variable of every name whose signature it has. -/
structure Collects (e : Environment) (uses : List Use) (k : Collection) : Prop extends
    Lists e uses k.bindings where
  signed : ∀ w, ∀ x ∈ k.signatures, e.store.signature (.variable w) = .ok x →
    ∃ w', .variable w' ∈ k.bindings ∧ (e.store.variable w').name = (e.store.variable w).name

section Collects

variable {uses uses' : List Use} {ds ds' : List BindingId} {u : Use}

theorem Lists.nil : Lists e [] [] where
  origin _ hd := absurd hd List.not_mem_nil
  named _ _ hn := absurd hn List.not_mem_nil

theorem Lists.append (h : Lists e uses ds) (h' : Lists e uses' ds') :
    Lists e (uses ++ uses') (ds ++ ds') where
  origin d hd := by
    rcases List.mem_append.1 hd with hd | hd
    · obtain ⟨u, hu, found⟩ := h.origin d hd
      exact ⟨u, List.mem_append_left _ hu, found⟩
    · obtain ⟨u, hu, found⟩ := h'.origin d hd
      exact ⟨u, List.mem_append_right _ hu, found⟩
  named n w hn declared := by
    rcases List.mem_append.1 hn with hn | hn
    · obtain ⟨w', member, same⟩ := h.named n w hn declared
      exact ⟨w', List.mem_append_left _ member, same⟩
    · obtain ⟨w', member, same⟩ := h'.named n w hn declared
      exact ⟨w', List.mem_append_right _ member, same⟩

theorem Lists.of_mem_iff (h : Lists e uses ds) (same : ∀ d, d ∈ ds' ↔ d ∈ ds) :
    Lists e uses ds' where
  origin d hd := h.origin d ((same d).1 hd)
  named n w hn declared := by
    obtain ⟨w', member, name⟩ := h.named n w hn declared
    exact ⟨w', (same _).2 member, name⟩

/-- One use lists what it refers to. -/
theorem Lists.single {e' : Environment} {b : Option BindingId} (finds : u.Finds e b e') :
    Lists e [u] b.toList where
  origin d hd := ⟨u, List.mem_singleton_self u, e', by rwa [Option.mem_toList.1 hd] at finds⟩
  named n w hn declared := by
    obtain ⟨_, _, -, found, -⟩ := finds
    cases List.mem_singleton.1 hn
    cases found
    exact ⟨w, by simp [declared], rfl⟩

theorem Collects.new (parentType : Option TypeId) (flags : Flags) :
    Collects e [] (.new parentType flags) :=
  ⟨.nil, by simp [Collection.new]⟩

/-- One more use is collected. -/
theorem Collects.offer {k k' : Collection} {stopped : Bool} (h : Collects e uses k)
    (before : e.Grows e₁) (run : outcome (u.offer e.bindingOf) (⟨e₁, k⟩ : Searching Collection) =
      (.ok stopped, ⟨e₂, k'⟩)) : Collects e (uses ++ [u]) k' ∧ e₁.Grows e₂ := by
  obtain ⟨b, found, accepted⟩ := Use.offer_eq_ok run
  have grown : e₁.Grows e₂ := Use.grows_of_find found
  refine ⟨?_, grown⟩
  have single := Lists.single (⟨e₁, e₂, before, found, .refl e₂⟩ : u.Finds e b e₂)
  have both := h.toLists.append single
  rcases (accept_collection_cases accepted).2 with
    ⟨rfl, rfl⟩ | ⟨d, x, rfl, signature, taken⟩
  · exact ⟨both.of_mem_iff (by simp), h.signed⟩
  have kept : ∀ w, (e₂.store.variable w).name = (e.store.variable w).name := fun w => by
    rw [(before.trans grown).store.variable_eq]
  rcases taken with ⟨seen, rfl⟩ | ⟨-, rfl⟩
  · -- the name of a variable whose signature was taken is there
    refine ⟨⟨fun d' hd' => both.origin d' (List.mem_append_left _ hd'), fun n w hn declared => ?_⟩,
      h.signed⟩
    rcases List.mem_append.1 hn with hn | hn
    · exact h.named n w hn declared
    · cases List.mem_singleton.1 hn
      have here : e.bindingOf n = some d := Except.ok.inj (congrArg Prod.fst found)
      cases declared.symm.trans here
      refine h.signed w x seen ?_
      rw [← signature]
      exact congrArg (fun name => Except.ok ("V" ++ name)) (kept w).symm
  · refine ⟨both, fun w y hy signature' => ?_⟩
    rcases List.mem_cons.1 hy with rfl | hy
    · obtain ⟨w', rfl, same⟩ := Store.exists_variable_of_signature_eq signature signature'
      exact ⟨w', by simp, by rw [← kept, same]⟩
    · obtain ⟨w', member, same⟩ := h.signed w y hy signature'
      exact ⟨w', List.mem_append_left _ member, same⟩

/-- Uses that are offered one after the other are collected, unless one of them fails. -/
theorem Collects.offerAll {k : Collection} (rest : List Use) (h : Collects e uses k)
    (before : e.Grows e₁) :
    match outcome (rest.anyM (Use.offer e.bindingOf)) (⟨e₁, k⟩ : Searching Collection) with
    | (.ok _, ⟨e₂, k'⟩) => Collects e (uses ++ rest) k' ∧ e₁.Grows e₂ ∧ k'.flags = k.flags
    | (.error f, _) => ∃ u ∈ rest, u.Fails e f := by
  induction rest generalizing uses e₁ k with
  | nil => exact ⟨by rwa [List.append_nil], .refl _, rfl⟩
  | cons u rest ih =>
    rw [List.anyM_cons]
    rcases first : outcome (u.offer e.bindingOf) (⟨e₁, k⟩ : Searching Collection) with
      ⟨f | stopped, ⟨e', k'⟩⟩
    · rw [outcome_bind_of_error first]
      exact ⟨u, List.mem_cons_self, e₁, k, before, by rw [first]⟩
    · obtain ⟨b, -, accepted⟩ := Use.offer_eq_ok first
      cases (accept_collection_cases accepted).1
      obtain ⟨collects, grown⟩ := h.offer before first
      have settings := keeps_settings k.parentType k.flags e'.store b k ⟨rfl, rfl⟩
      rw [accepted] at settings
      rw [outcome_bind_of_ok first]
      have later := ih collects (before.trans grown)
      simp only [Bool.false_eq_true, if_false]
      revert later
      rcases outcome (rest.anyM (Use.offer e.bindingOf)) (⟨e', k'⟩ : Searching Collection) with
        ⟨f | stopped', ⟨e'', k''⟩⟩
      · rintro ⟨u', member, fails⟩
        exact ⟨u', List.mem_cons_of_mem _ member, fails⟩
      · rintro ⟨collects', grown', flags⟩
        rw [List.append_assoc] at collects'
        exact ⟨collects', grown.trans grown', flags.trans settings.2⟩

end Collects

/-! ## What a query at code lists -/

section Query

theorem lists_declarationsAfter (n : Node) (flags : Flags) (onlyAround : Bool) (grown : e.Grows e₁) :
    match outcome (declarationsAfter expressionType n flags onlyAround) e₁ with
    | (.ok ds, e₂) => Lists e (usesAfter e n flags onlyAround) ds ∧ e₁.Grows e₂
    | (.error f, _) => ∃ u ∈ usesAfter e n flags onlyAround, u.Fails e f := by
  unfold declarationsAfter usesAfter
  cases laterBlock : n.laterBlock onlyAround with
  | none => exact ⟨.nil, .refl _⟩
  | some block =>
    simp only [Option.toList_some, List.flatMap_singleton]
    rw [outcome_bind_of_ok (outcome_get e₁)]
    have point : (⟨e.context.unit, e.bindingOf, e.context.unit.charStart n, flags⟩ : ScopePoint) =
        pointAfter e n flags := rfl
    have bindings : e.bindingOf = (pointAfter e n flags).bindingOf := rfl
    simp only [grown.context, grown.bindingOf, grown.document, point]
    have collects := (Collects.new none .none).offerAll
      (usesIn (pointAfter e n flags) e.document block) grown
    rw [List.nil_append, bindings, ← search_lookLater] at collects
    rcases searched : outcome (block.search (lookLater expressionType (pointAfter e n flags)
      e.document)) (⟨e₁, .new none .none⟩ : Searching Collection) with ⟨f | stopped, ⟨e₂, k⟩⟩
    · rw [searched] at collects
      rw [outcome_collected_of_error searched]
      exact collects
    · rw [searched] at collects
      obtain ⟨collects, grown', same⟩ := collects
      have unchecked : k.flags.checkVisibility = false := by
        rw [same]
        rfl
      rw [outcome_collected searched, Collection.outcome_requested_of_unchecked unchecked]
      exact ⟨collects.toLists, grown'⟩

/-- At a method or a statement, a query lists the uses that the flags ask for, unless one of them
fails. -/
theorem lists_declarationsInScope {l : Location} {n : Node} (flags : Flags) (grown : e.Grows e₁)
    (selected : e.context.firstCovered l = some n)
    (code : (Selector.location l).selectsCode n = true) :
    match outcome (declarationsInScope (.location l) flags) e₁ with
    | (.ok ds, e₂) => Lists e (usesOfCode e n flags) ds ∧ e₁.Grows e₂
    | (.error f, _) => ∃ u ∈ usesOfCode e n flags, u.Fails e f := by
  rw [outcome_declarationsInScope_of_selectsCode (by rw [grown.context, selected]) code]
  have inside := lists_declarationsAfter n flags false grown
  rcases first : outcome (declarationsAfter expressionType n flags false) e₁ with ⟨f | ds, e'⟩
  · rw [first] at inside
    rw [outcome_bind_of_error first]
    obtain ⟨u, hu, fails⟩ := inside
    exact ⟨u, by simp [usesOfCode, hu], fails⟩
  rw [first] at inside
  rw [outcome_bind_of_ok first]
  obtain ⟨lists, grown'⟩ := inside
  have around := lists_declarationsAfter n flags true (grown.trans grown')
  rcases second : outcome (declarationsAfter expressionType n flags true) e' with ⟨f | ds', e''⟩
  · rw [second] at around
    rw [outcome_bind_of_error second]
    obtain ⟨u, hu, fails⟩ := around
    exact ⟨u, by simp [usesOfCode, hu], fails⟩
  rw [second] at around
  rw [outcome_bind_of_ok second]
  obtain ⟨lists', grown''⟩ := around
  have self : Lists e (Use.onlyIf (n.kind.isMethodDeclaration && flags.methods) (.declaration n))
      (if n.kind.isMethodDeclaration && flags.methods then (e₁.bindingOf n).toList else []) := by
    rw [grown.bindingOf]
    unfold Use.onlyIf
    split
    · have finds : (Use.declaration n).Finds e (e.bindingOf n) e := ⟨e, e, .refl e, rfl, .refl e⟩
      exact .single finds
    · exact .nil
  refine ⟨(self.append (lists.append lists')).of_mem_iff fun d => ?_, grown'.trans grown''⟩
  rw [mem_distinct, List.append_assoc]

end Query

/-! ## Queries for variables -/

section Variables

variable {c : Context} {e₀ : Environment} {n : Node}

/-- A query for variables looks at declarations of variables and at names that are returned. -/
theorem mem_usesAt_onlyVariables {p : ScopePoint} {d : Document} {u : Use}
    (h : u ∈ usesAt p d n) (flags : p.flags = .onlyVariables) :
    u = .declaration n ∧ n.kind.isCodeVariable = true ∨
      ∃ value, u = .reference value := by
  unfold usesAt at h
  by_cases named : n.isNamed = true
  · simp only [named, Bool.not_true, Bool.false_eq_true, if_false, flags] at h
    have vars : Flags.onlyVariables.vars = true := rfl
    have methods : Flags.onlyVariables.methods = false := rfl
    have types : Flags.onlyVariables.types = false := rfl
    simp only [vars, methods, types, Bool.and_true, Bool.and_false] at h
    cases kind : n.kind
    case returnStatement =>
      right
      simp only [kind] at h
      cases value : n.namedChildren.head? with
      | none => simp [value] at h
      | some value' =>
        simp only [value] at h
        split at h
        · exact ⟨value', (mem_onlyIf.1 h).2⟩
        · simp [Use.onlyIf] at h
    all_goals
      simp only [kind, List.mem_append, List.mem_flatMap, mem_onlyIf, List.not_mem_nil] at h
    all_goals simp_all [Kind.isCodeVariable]
  · simp [named] at h

/-- Offering a declaration of a variable does not fail. -/
theorem not_fails_declaration (built : Environment.build c = .ok e₀) (grown : e₀.Grows e)
    (shape : c.document.tree.HasLeafNames) (hn : n ∈ c.document.root.preorder)
    (isVariable : n.kind.isCodeVariable = true) (f : Fault) : ¬ (Use.declaration n).Fails e f := by
  rintro ⟨e₁, k, -, failed⟩
  have offered : outcome ((Use.declaration n).offer e.bindingOf) (⟨e₁, k⟩ : Searching Collection) =
      outcome (SearchM.offer (e.bindingOf n)) ⟨e₁, k⟩ := rfl
  have offer : ∀ b, (outcome (SearchM.offer b) (⟨e₁, k⟩ : Searching Collection)).1 =
      (outcome (Request.accept e₁.store b) k).1 := fun _ => rfl
  rw [offered, offer, grown.bindingOf] at failed
  cases declared : e₀.bindingOf n with
  | none =>
    rw [declared] at failed
    cases failed
  | some b =>
    obtain ⟨-, -, -, kind⟩ :=
      Environment.declaredAt_of_isCodeVariable built shape hn isVariable declared
    rw [declared, outcome_accept_collection] at failed
    cases b with
    | «variable» w => cases failed
    | type t => cases kind
    | method m => cases kind

end Variables

end Scope

/-! ## Methods in statements -/

namespace Node

variable {t : Tree} {method statement block k : Node}

theorem mem_climb_of_blockAround (h : statement.blockAround = some block) :
    block ∈ statement.climb := by
  unfold blockAround at h
  split at h
  · next m first =>
    split at h
    · cases h
      exact List.mem_of_find?_eq_some first
    · cases h
  · cases h

theorem mem_climb_of_statementAround (h : method.statementAround = some statement) :
    statement ∈ method.climb := by
  unfold statementAround at h
  split at h
  · cases h
    exact List.mem_cons_self
  · split at h
    · next m found =>
      split at h
      · cases h
      · cases h
        exact List.mem_cons_of_mem _ (List.mem_of_find?_eq_some found)
    · cases h

/-- The block that a query looks into stands in the tree. -/
theorem mem_preorder_of_laterBlock {onlyAround : Bool} (hm : method ∈ t.root.preorder)
    (h : method.laterBlock onlyAround = some block) : block ∈ t.root.preorder := by
  unfold laterBlock at h
  split at h
  · next statement around =>
    have above := Tree.mem_of_climb hm (mem_climb_of_statementAround around)
    exact Tree.mem_of_climb above (mem_climb_of_blockAround h)
  · split at h
    · cases h
    · exact mem_preorder_of_mem_children hm (List.mem_of_find?_eq_some h)

theorem statementAround_eq_some (around : method.statementAround = some statement)
    (other : method.kind.isStatement = false) :
    (method.above.find? fun m => m.kind.isMemberDeclaration || m.kind.isStatement) = some statement ∧
      statement.kind.isMemberDeclaration = false := by
  rw [statementAround, other, if_neg Bool.false_ne_true] at around
  split at around
  · next m found =>
    split at around
    · cases around
    · next isStatement =>
      cases around
      exact ⟨found, by simpa using isStatement⟩
  · cases around

/-- A body of a type that stands in a statement within the member around it is that of an anonymous
class. -/
theorem isAnonymousBody_of_statement (shape : t.HasMembersInBodies) (hk : k ∈ t.root.preorder)
    (isBody : k.kind.isTypeBody = true)
    (found : (k.above.find? fun m => m.kind.isMemberDeclaration || m.kind.isStatement) =
      some statement) (inside : statement.kind.isMemberDeclaration = false) :
    k.isAnonymousBody = true := by
  -- a declaration of a type is a member, so the climb would end there
  have noType : ∀ n up : Node, n.above.find? (fun m => m.kind.isMemberDeclaration ||
      m.kind.isStatement) = some statement → n ∈ up.children → up.kind.isTypeDeclaration = false := by
    intro n up found below
    by_contra isType
    have member : up.kind.isMemberDeclaration = true := by
      revert isType
      cases up.kind <;> simp [Kind.isTypeDeclaration, Kind.isMemberDeclaration]
    rw [above_of_mem_children below, climb, List.find?_cons_of_pos (by simp [member])] at found
    cases found
    rw [member] at inside
    cases inside
  obtain ⟨up, parent, owner⟩ := (Option.any_eq_true _ _).1 ((shape.members k hk).body isBody)
  obtain ⟨hup, below⟩ := Tree.mem_of_parent hk parent
  have notType := noType k up found below
  simp only [notType, Bool.false_and, Bool.false_or, Bool.or_eq_true, Bool.and_eq_true,
    beq_iff_eq] at owner
  rcases owner with ⟨kind, owns⟩ | ⟨-, kind⟩
  · simp [isAnonymousBody, kind, parent, owns]
  · -- the part of an enum body after the constants stands in the declaration of an enum
    exfalso
    obtain ⟨top, parent', owner⟩ := (Option.any_eq_true _ _).1
      ((shape.members up hup).body (by rw [kind]; rfl))
    obtain ⟨-, below'⟩ := Tree.mem_of_parent hup parent'
    rw [above_of_mem_children below, climb, List.find?_cons_of_neg (by rw [kind]; decide)] at found
    simp [noType up top found below', kind] at owner

/-- A method that stands in a statement within the member around it is a member of an anonymous class
in the block that is looked at. -/
theorem exists_anonymousBody (shape : t.HasMembersInBodies) (hm : method ∈ t.root.preorder)
    (isMethod : method.kind.isMethodDeclaration = true)
    (inBody : method.parent.any (·.kind.isTypeBody) = true)
    (around : method.statementAround = some statement) : ∃ k, method ∈ k.children ∧
      k.isAnonymousBody = true ∧ ∀ block, statement.blockAround = some block → k ∈ block.preorder := by
  obtain ⟨found, inside⟩ := statementAround_eq_some around (by
    revert isMethod
    cases method.kind <;> simp [Kind.isMethodDeclaration, Kind.isStatement])
  obtain ⟨k, parent, isBody⟩ := (Option.any_eq_true _ _).1 inBody
  obtain ⟨hk, below⟩ := Tree.mem_of_parent hm parent
  have passed : ¬ (k.kind.isMemberDeclaration || k.kind.isStatement) = true := by
    revert isBody
    cases k.kind <;> simp [Kind.isTypeBody, Kind.isMemberDeclaration, Kind.isStatement]
  rw [above_of_mem_children below, climb, List.find?_cons_of_neg (by exact passed)] at found
  refine ⟨k, below, isAnonymousBody_of_statement shape hk isBody found inside, fun block looked => ?_⟩
  have above : statement ∈ k.climb := List.mem_cons_of_mem _ (List.mem_of_find?_eq_some found)
  have hs := Tree.mem_of_climb hk above
  exact mem_preorder_trans (Tree.mem_preorder_of_mem_climb hs (mem_climb_of_blockAround looked))
    (Tree.mem_preorder_of_mem_climb hk above)

end Node

namespace Scope

/-! ## The locals of a method -/

/-- A declarator of a local variable that is declared directly in the body of a method, after the start
of the method, in the tree of a built environment or one that has grown from it. -/
structure IsMethodLocal (c : Context) (e₀ e : Environment) (method body declaration v name : Node) :
    Prop where
  built : Environment.build c = .ok e₀
  grown : e₀.Grows e
  java : c.document.tree.IsJava
  shape : c.document.tree.HasLeafNames
  members : c.document.tree.HasMembersInBodies
  within : method ∈ c.document.root.preorder
  isMethod : method.kind.isMethodDeclaration = true
  inBody : method.parent.any (·.kind.isTypeBody) = true
  hasBody : method.children.find? (·.kind.isBlock) = some body
  statement : declaration ∈ body.children
  kind : declaration.kind = .localVariableDeclaration
  declarator : v ∈ declaration.declarators
  isName : v.nameNode = some name
  after : e.context.unit.charStart method < e.context.unit.charStart v

namespace IsMethodLocal

variable {c : Context} {e₀ e : Environment} {method body declaration v name : Node}
  (here : IsMethodLocal c e₀ e method body declaration v name)

include here

theorem body_mem : body ∈ method.children ∧ body.kind.isBlock = true :=
  ⟨List.mem_of_find?_eq_some here.hasBody,
    List.find?_some (p := fun n : Node => n.kind.isBlock) here.hasBody⟩

theorem declaration_mem : declaration ∈ c.document.root.preorder :=
  Node.mem_preorder_of_mem_children
    (Node.mem_preorder_of_mem_children here.within here.body_mem.1) here.statement

theorem isLocal {b : BindingId} (binding : e₀.bindingOf v = some b) :
    IsLocal c e₀ declaration v b where
  java := here.java
  ready := Environment.build_ready here.built
  member := here.declaration_mem
  kind := here.kind
  declarator := here.declarator
  binding := binding

theorem child : v ∈ declaration.children :=
  (List.mem_filter.1 here.declarator).1

theorem v_named : v.isNamed = true ∧ v.kind = .variableDeclarator :=
  (here.java.fits _ here.declaration_mem).declarator here.kind v here.declarator

theorem v_mem : v ∈ c.document.root.preorder :=
  Node.mem_preorder_of_mem_children here.declaration_mem here.child

theorem v_mem_method : v ∈ method.preorder :=
  Node.mem_preorder_of_child here.body_mem.1
    (Node.mem_preorder_of_child here.statement
      (Node.mem_preorder_of_child here.child (Node.mem_preorder_self v)))

/-- In bodies, the declarator leads to a variable. -/
theorem exists_variable (stands : v.StandsInBodies) : ∃ w, e₀.bindingOf v = some (.variable w) := by
  refine Environment.exists_variable_of_declarator here.built here.java here.shape.toIsRegular
    here.declaration_mem ?_ here.kind here.declarator stands here.isName
  rintro rfl
  cases Node.parent_of_mem_children here.statement

/-- The declarator is the node of the variable that it leads to, which is no field and has its name. -/
theorem variable_spec {b : BindingId} (binding : e₀.bindingOf v = some b) :
    ∃ w, b = .variable w ∧ (e₀.store.variable w).node = some v ∧
      (e₀.store.variable w).isField = false ∧
      (e₀.store.variable w).name = c.document.textOf name := by
  have isVariable : v.kind.isCodeVariable = true := by rw [here.v_named.2]; rfl
  obtain ⟨-, -, -, kind⟩ := Environment.declaredAt_of_isCodeVariable here.built here.shape
    here.v_mem isVariable binding
  have parent := Node.parent_of_mem_children here.child
  cases b with
  | type t => cases kind
  | method m => cases kind
  | «variable» w =>
    have node : (e₀.store.variable w).node = some v := by
      obtain ⟨m, node, same | ⟨isSpread, below⟩⟩ :=
        Environment.node_of_isCodeVariable here.built here.shape here.v_mem binding isVariable
      · rw [node, same]
      · rw [Node.parent_of_mem_children below] at parent
        cases parent
        rw [here.kind] at isSpread
        cases isSpread
    refine ⟨w, rfl, node, ?_, ?_⟩
    · refine Environment.isField_of_isCodeVariable here.built here.shape here.v_mem binding
        isVariable fun declares => ?_
      have kinds := declares.kind here.shape.toIsRegular here.v_mem
      simp [here.v_named.2, parent, here.kind, Kind.isFieldDeclaration] at kinds
    · rw [Environment.build_spells here.built here.shape w v node, Document.spelling, here.isName]
      rfl

/-- A search of the body meets the declarator. -/
theorem declaration_mem_usesIn :
    .declaration v ∈ usesIn (pointAfter e method .onlyVariables) e.document body := by
  have entersBody : entersLater e.bindingOf body = true := by
    have named := (here.java.fits _ (Node.mem_preorder_of_mem_children here.within
      here.body_mem.1)).isNamed here.statement
    have isBlock := here.body_mem.2
    unfold entersLater
    revert isBlock
    cases body.kind <;> simp [Kind.isBlock, named]
  have entersDeclaration : entersLater e.bindingOf declaration = true := by
    have named := (here.java.fits _ here.declaration_mem).isNamed here.child
    simp [entersLater, named, here.kind]
  refine List.mem_flatMap.2 ⟨v, Node.mem_visited_of_child entersBody here.statement
    (Node.mem_visited_of_child entersDeclaration here.child (Node.mem_visited_self _ _)), ?_⟩
  have vars : (pointAfter e method .onlyVariables).flags.vars = true := rfl
  have after : (pointAfter e method .onlyVariables).position <
      (pointAfter e method .onlyVariables).unit.charStart v := here.after
  simp [usesAt, here.v_named, vars, after, Use.onlyIf]

/-- The declarator belongs to the method. -/
theorem methodAround : v.methodAround = some method := by
  have bodyKind := here.body_mem.2
  have plain : ∀ {n : Node}, (n.kind.isBlock = true ∨ n.kind = .localVariableDeclaration ∨
      n.kind = .variableDeclarator) → n.kind.isMethodDeclaration = false ∧ n.opensType = false := by
    intro n kinds
    rw [Node.opensType, Node.isAnonymousBody]
    revert kinds
    cases n.kind <;> simp [Kind.isBlock, Kind.isMethodDeclaration, Kind.isTypeDeclaration]
  obtain ⟨method₁, type₁⟩ := plain (.inl bodyKind)
  obtain ⟨method₂, type₂⟩ := plain (.inr (.inl here.kind))
  obtain ⟨method₃, type₃⟩ := plain (.inr (.inr here.v_named.2))
  rw [Node.methodAround_of_mem_children here.child method₃ type₃,
    Node.methodAround_of_mem_children here.statement method₂ type₂,
    Node.methodAround_of_mem_children here.body_mem.1 method₁ type₁,
    Node.methodAround_of_isMethod here.isMethod]

/-- A search of the block around a method in a statement does not meet the declarator: the anonymous
class of the method is declared, as the declarator is, and stays closed. -/
theorem not_visited {b : BindingId} (binding : e₀.bindingOf v = some b) {statement block : Node}
    (around : method.statementAround = some statement)
    (looked : statement.blockAround = some block) :
    v ∉ block.visited (entersLater e.bindingOf) := by
  intro visited
  obtain ⟨k, below, anonymous, inside⟩ := Node.exists_anonymousBody here.members here.within
    here.isMethod here.inBody around
  obtain ⟨kind, -⟩ := Bool.and_eq_true_iff.1 anonymous
  have opens : k.opensType = true := by rw [Node.opensType, anonymous, Bool.or_true]
  obtain ⟨w, rfl, node, isLocal, -⟩ := here.variable_spec binding
  obtain ⟨key, filed⟩ := Environment.exists_mem_of_bindingOf binding
  obtain ⟨t, declared⟩ := Environment.exists_declaredAt_typeAbove here.built here.members
    (List.mem_map_of_mem filed) isLocal node here.methodAround here.within (by
      rw [Node.typeAbove_of_mem_children below, Node.find?_opensType_of_opensType opens])
  have inner : v ∈ k.preorder := Node.mem_preorder_of_child below here.v_mem_method
  have other : v ≠ k := by
    rintro rfl
    rw [here.v_named.2] at kind
    cases kind
  have entered := Node.enters_of_mem_visited visited (inside block looked) inner other
  have leads : e.bindingOf k = some (.type t) := by
    rw [here.grown.bindingOf]
    exact Environment.bindingOf_of_declaredAt declared
  rw [entersLater, eq_of_beq kind, leads] at entered
  simp at entered

end IsMethodLocal

/-- A name that is returned after the start of the method refers to the binding. -/
def IsReturned (e : Environment) (method : Node) (b : BindingId) : Prop :=
  ∃ value e', .reference value ∈ usesOfCode e method .onlyVariables ∧
    (Use.reference value).Finds e (some b) e'

/-- A name that is returned after the start of the method cannot be resolved and offered. -/
def ReturnFails (e : Environment) (method : Node) (f : Fault) : Prop :=
  ∃ value, .reference value ∈ usesOfCode e method .onlyVariables ∧ (Use.reference value).Fails e f

section Query

variable {c : Context} {e₀ e : Environment} {method body declaration v name : Node}

/-- A use that a query for variables at a method looks at is a declaration of a variable that the search
of a block meets, or a name that is returned. -/
theorem mem_usesOfCode_onlyVariables {u : Use} (h : u ∈ usesOfCode e method .onlyVariables) :
    (∃ onlyAround block n, method.laterBlock onlyAround = some block ∧
        n ∈ block.visited (entersLater e.bindingOf) ∧ u = .declaration n ∧
        n.kind.isCodeVariable = true) ∨ ∃ value, u = .reference value := by
  have methods : (method.kind.isMethodDeclaration && Flags.onlyVariables.methods) = false :=
    Bool.and_false _
  have inBlock : ∀ onlyAround, u ∈ usesAfter e method .onlyVariables onlyAround →
      (∃ onlyAround block n, method.laterBlock onlyAround = some block ∧
        n ∈ block.visited (entersLater e.bindingOf) ∧ u = .declaration n ∧
        n.kind.isCodeVariable = true) ∨ ∃ value, u = .reference value := by
    intro onlyAround hu
    obtain ⟨block, looked, hu⟩ := List.mem_flatMap.1 hu
    obtain ⟨n, visited, hu⟩ := List.mem_flatMap.1 hu
    rcases mem_usesAt_onlyVariables hu rfl with ⟨isDeclaration, isVariable⟩ | returned
    · exact .inl ⟨onlyAround, block, n, Option.mem_toList.1 looked, visited, isDeclaration, isVariable⟩
    · exact .inr returned
  simp only [usesOfCode, methods, Use.onlyIf, Bool.false_eq_true, if_false, List.nil_append] at h
  rcases List.mem_append.1 h with hu | hu
  · exact inBlock false hu
  · exact inBlock true hu

namespace IsMethodLocal

variable (here : IsMethodLocal c e₀ e method body declaration v name)

include here

theorem mem_preorder_of_visited {onlyAround : Bool} {block n : Node}
    (looked : method.laterBlock onlyAround = some block)
    (visited : n ∈ block.visited (entersLater e.bindingOf)) : n ∈ c.document.root.preorder :=
  Node.mem_preorder_trans (Node.mem_preorder_of_laterBlock here.within looked)
    (Node.mem_preorder_of_mem_visited visited)

/-- A declaration of a variable does not fail, so a use that fails is a name that is returned. -/
theorem returnFails {u : Use} {f : Fault} (hu : u ∈ usesOfCode e method .onlyVariables)
    (fails : u.Fails e f) : ReturnFails e method f := by
  rcases mem_usesOfCode_onlyVariables hu with
    ⟨onlyAround, block, n, looked, visited, rfl, isVariable⟩ | ⟨value, rfl⟩
  · exact absurd fails (not_fails_declaration here.built here.grown here.shape
      (here.mem_preorder_of_visited looked visited) isVariable f)
  · exact ⟨value, hu, fails⟩

/-- In the block around a statement that holds the method, only a name that is returned refers to the
binding of the declarator. -/
theorem isReturned {b : BindingId} {u : Use} {e' : Environment} {statement : Node}
    (binding : e₀.bindingOf v = some b) (around : method.statementAround = some statement)
    (hu : u ∈ usesOfCode e method .onlyVariables) (finds : u.Finds e (some b) e') :
    IsReturned e method b := by
  rcases mem_usesOfCode_onlyVariables hu with
    ⟨onlyAround, block, n, looked, visited, rfl, isVariable⟩ | ⟨value, rfl⟩
  · exfalso
    have member := here.mem_preorder_of_visited looked visited
    rw [Node.laterBlock, around] at looked
    obtain ⟨_, _, -, found, -⟩ := finds
    have leads : e₀.bindingOf n = some b := by
      rw [← here.grown.bindingOf]
      exact Except.ok.inj (congrArg Prod.fst found)
    have same : n = v := by
      by_contra other
      refine (here.isLocal binding).bindingOf_ne member other ?_ leads
      revert isVariable
      cases n.kind <;> simp [Kind.isCodeVariable]
    exact here.not_visited binding around looked (same ▸ visited)
  · exact ⟨value, e', hu, finds⟩

/-- Without a statement around the method, its own body is looked at, and the declarator is used. -/
theorem declaration_mem_usesOfCode (around : method.statementAround = none) :
    .declaration v ∈ usesOfCode e method .onlyVariables := by
  have looked : method.laterBlock false = some body := by
    rw [Node.laterBlock, around]
    exact here.hasBody
  have inside := here.declaration_mem_usesIn
  simp [usesOfCode, usesAfter, looked, inside]

end IsMethodLocal

/-- At the location of a method, the query for variables reports a variable of the name of every
variable that is declared directly in the body, if no statement holds the method within the member
around it. If a statement does, no such variable is reported, unless a name that is returned in the
block around the statement refers to it. The query fails only where a returned name cannot be
resolved. -/
theorem declarationsInScope_methodLocals {l : Location} (built : Environment.build c = .ok e₀)
    (grown : e₀.Grows e) (java : c.document.tree.IsJava) (shape : c.document.tree.HasLeafNames)
    (members : c.document.tree.HasMembersInBodies)
    (selected : e.context.firstCovered l = some method)
    (isMethod : method.kind.isMethodDeclaration = true)
    (inBody : method.parent.any (·.kind.isTypeBody) = true)
    (hasBody : method.children.find? (·.kind.isBlock) = some body)
    (statement : declaration ∈ body.children) (kind : declaration.kind = .localVariableDeclaration)
    (declarator : v ∈ declaration.declarators) (isName : v.nameNode = some name)
    (after : e.context.unit.charStart method < e.context.unit.charStart v) :
    (v.StandsInBodies → ∃ w, e.bindingOf v = some (.variable w)) ∧
      ∀ b, e.bindingOf v = some b →
        match method.statementAround,
          outcome (declarationsInScope (.location l) .onlyVariables) e with
        | none, (.ok ds, e') =>
          ∃ w, .variable w ∈ ds ∧ (e'.store.variable w).name = c.document.textOf name
        | some _, (.ok ds, _) => b ∈ ds → IsReturned e method b
        | _, (.error f, _) => ReturnFails e method f := by
  have context : e.context = c := by
    rw [grown.context, (Environment.build_ready built).sound.context]
  have within : method ∈ c.document.root.preorder := by
    rw [context] at selected
    have covered := List.mem_of_mem_head? (Option.mem_def.2 selected)
    exact Context.mem_preorder_of_mem_visited (List.mem_filter.1 covered).1
  have here : IsMethodLocal c e₀ e method body declaration v name :=
    ⟨built, grown, java, shape, members, within, isMethod, inBody, hasBody, statement, kind, declarator,
      isName, after⟩
  rw [grown.bindingOf]
  refine ⟨here.exists_variable, fun b binding => ?_⟩
  have code : (Selector.location l).selectsCode method = true := by
    revert isMethod
    rw [Selector.selectsCode]
    cases method.kind <;> simp [Kind.isMethodDeclaration]
  have listed := lists_declarationsInScope .onlyVariables (.refl e) selected code
  rcases ran : outcome (declarationsInScope (.location l) .onlyVariables) e with ⟨f | ds, e'⟩
  · rw [ran] at listed
    obtain ⟨u, hu, fails⟩ := listed
    have failed := here.returnFails hu fails
    cases method.statementAround <;> exact failed
  · rw [ran] at listed
    obtain ⟨lists, grown'⟩ := listed
    obtain ⟨w, rfl, -, -, spelled⟩ := here.variable_spec binding
    cases around : method.statementAround with
    | none =>
      obtain ⟨w', member, same⟩ := lists.named v w (here.declaration_mem_usesOfCode around)
        (by rw [grown.bindingOf, binding])
      refine ⟨w', member, ?_⟩
      rw [grown'.store.variable_eq, same, grown.store.variable_eq, spelled]
    | some statement =>
      intro reported
      obtain ⟨u, hu, e'', finds⟩ := lists.origin _ reported
      exact here.isReturned binding around hu finds

end Query

/-! ## A method of an anonymous class in a statement -/

/-- `class A { void f() { int u; new B() { void m() { int v = 1; } }; } }` -/
def localInAnonymous : Context :=
  .ofFile "class A \x7b void f() \x7b int u; new B() \x7b void m() \x7b int v = 1; \x7d \x7d; \x7d \x7d" <|
    .named .program none 0 68 [
      .named .classDeclaration none 0 68 [
        .token "class" 0, .named .identifier (some .name) 6 7 [],
        .named .classBody (some .body) 8 68 [
          .token "\x7b" 8,
          .named .methodDeclaration none 10 66 [
            .named .voidType (some .type) 10 14 [], .named .identifier (some .name) 15 16 [],
            .named .formalParameters (some .parameters) 16 18 [.token "(" 16, .token ")" 17],
            .named .block (some .body) 19 66 [
              .token "\x7b" 19,
              .named .localVariableDeclaration none 21 27 [
                .named .integralType (some .type) 21 24 [.token "int" 21],
                .named .variableDeclarator (some .declarator) 25 26 [
                  .named .identifier (some .name) 25 26 []],
                .token ";" 26],
              .named .expressionStatement none 28 64 [
                .named .objectCreationExpression none 28 63 [
                  .token "new" 28, .named .typeIdentifier (some .type) 32 33 [],
                  .named (.other "argument_list") (some .arguments) 33 35 [
                    .token "(" 33, .token ")" 34],
                  .named .classBody none 36 63 [
                    .token "\x7b" 36,
                    .named .methodDeclaration none 38 61 [
                      .named .voidType (some .type) 38 42 [],
                      .named .identifier (some .name) 43 44 [],
                      .named .formalParameters (some .parameters) 44 46 [
                        .token "(" 44, .token ")" 45],
                      .named .block (some .body) 47 61 [
                        .token "\x7b" 47,
                        .named .localVariableDeclaration none 49 59 [
                          .named .integralType (some .type) 49 52 [.token "int" 49],
                          .named .variableDeclarator (some .declarator) 53 58 [
                            .named .identifier (some .name) 53 54 [], .token "=" 55,
                            .named .decimalIntegerLiteral (some .value) 57 58 []],
                          .token ";" 58],
                        .token "\x7d" 60]],
                    .token "\x7d" 62]],
                .token ";" 63],
              .token "\x7d" 65]],
          .token "\x7d" 67]]]

/-- The first local variable that is declared directly in the body of a method: the body, the
declaration, the declarator and its name. -/
def firstLocal (method : Node) : Option (Node × Node × Node × Node) := do
  let body ← method.children.find? (·.kind.isBlock)
  let declaration ← body.children.find? (·.kind == .localVariableDeclaration)
  let v ← declaration.declarators.head?
  let name ← v.nameNode
  return (body, declaration, v, name)

theorem firstLocal_spec {method body declaration v name : Node}
    (h : firstLocal method = some (body, declaration, v, name)) :
    method.children.find? (·.kind.isBlock) = some body ∧ declaration ∈ body.children ∧
      declaration.kind = .localVariableDeclaration ∧ v ∈ declaration.declarators ∧
      v.nameNode = some name := by
  obtain ⟨_, hasBody, h⟩ := Option.bind_eq_some_iff.1 h
  obtain ⟨_, found, h⟩ := Option.bind_eq_some_iff.1 h
  obtain ⟨_, first, h⟩ := Option.bind_eq_some_iff.1 h
  obtain ⟨_, named, h⟩ := Option.bind_eq_some_iff.1 h
  cases h
  exact ⟨hasBody, List.mem_of_find?_eq_some found, eq_of_beq (List.find?_some
    (p := fun n : Node => n.kind == .localVariableDeclaration) found),
    List.mem_of_mem_head? (Option.mem_def.2 first), named⟩

/-- What the query for variables is asked and reports at the location of the method of a name: whether
the method and its first local variable are in place, whether a statement holds the method, the name of
the variable and those of what is reported. -/
def localsAt (unitName : String) : Option (Bool × Bool × String × List String) :=
  match Environment.build localInAnonymous,
    localInAnonymous.locate (.named .methods (some unitName) none) with
  | .ok e, .ok [u] =>
    match e.context.firstCovered u.toLocation with
    | some method =>
      match firstLocal method,
        outcome (declarationsInScope (.location u.toLocation) .onlyVariables) e with
      | some (_, _, v, name), (.ok ds, e') =>
        some (method.kind.isMethodDeclaration && method.parent.any (·.kind.isTypeBody) &&
            decide (e.context.unit.charStart method < e.context.unit.charStart v),
          method.statementAround.isSome, localInAnonymous.document.textOf name, ds.map e'.store.name)
      | _, _ => none
    | none => none
  | _, _ => none

set_option maxRecDepth 100000 in
theorem localsAt_computed :
    localsAt "f" = some (true, false, "u", ["u"]) ∧
      localsAt "m" = some (true, true, "v", []) := by
  decide +kernel

theorem localsAt_spec {unitName text : String} {held : Bool} {names : List String}
    (h : localsAt unitName = some (true, held, text, names)) :
    ∃ e u method body declaration v name ds e', Environment.build localInAnonymous = .ok e ∧
      localInAnonymous.locate (.named .methods (some unitName) none) = .ok [u] ∧
      e.context.firstCovered u.toLocation = some method ∧
      method.kind.isMethodDeclaration = true ∧ method.parent.any (·.kind.isTypeBody) = true ∧
      firstLocal method = some (body, declaration, v, name) ∧
      e.context.unit.charStart method < e.context.unit.charStart v ∧
      method.statementAround.isSome = held ∧ localInAnonymous.document.textOf name = text ∧
      outcome (declarationsInScope (.location u.toLocation) .onlyVariables) e = (.ok ds, e') ∧
      ds.map e'.store.name = names := by
  unfold localsAt at h
  split at h
  · next e u built located =>
    split at h
    · next method selected =>
      split at h
      · next body declaration v name ds e' first asked =>
        simp only [Option.some.injEq, Prod.mk.injEq, Bool.and_eq_true, decide_eq_true_eq] at h
        obtain ⟨⟨⟨isMethod, inBody⟩, after⟩, around, spelled, reported⟩ := h
        exact ⟨e, u, method, body, declaration, v, name, ds, e', built, located, selected, isMethod,
          inBody, first, after, around, spelled, asked, reported⟩
      · cases h
    · cases h
  · cases h

theorem localInAnonymous_shape : localInAnonymous.document.tree.IsJava ∧
    localInAnonymous.document.tree.HasLeafNames ∧
    localInAnonymous.document.tree.HasMembersInBodies := by
  refine ⟨?_, ?_, ?_⟩ <;> decide

/-- At the method `f`, the local variable `u` is reported. -/
theorem declarationsInScope_methodLocals_localInAnonymous :
    ∃ e u method body declaration v name ds e', Environment.build localInAnonymous = .ok e ∧
      localInAnonymous.document.tree.IsJava ∧ localInAnonymous.document.tree.HasLeafNames ∧
      localInAnonymous.document.tree.HasMembersInBodies ∧
      localInAnonymous.locate (.named .methods (some "f") none) = .ok [u] ∧
      e.context.firstCovered u.toLocation = some method ∧
      method.kind.isMethodDeclaration = true ∧ method.parent.any (·.kind.isTypeBody) = true ∧
      method.children.find? (·.kind.isBlock) = some body ∧ declaration ∈ body.children ∧
      declaration.kind = .localVariableDeclaration ∧ v ∈ declaration.declarators ∧
      v.nameNode = some name ∧ e.context.unit.charStart method < e.context.unit.charStart v ∧
      method.statementAround = none ∧
      outcome (declarationsInScope (.location u.toLocation) .onlyVariables) e = (.ok ds, e') ∧
      (v.StandsInBodies → ∃ w, e.bindingOf v = some (.variable w)) ∧
      ∀ b, e.bindingOf v = some b → ∃ w, .variable w ∈ ds ∧
        (e'.store.variable w).name = localInAnonymous.document.textOf name := by
  obtain ⟨java, shape, members⟩ := localInAnonymous_shape
  obtain ⟨e, u, method, body, declaration, v, name, ds, e', built, located, selected, isMethod, inBody,
    first, after, free, -, asked, -⟩ := localsAt_spec localsAt_computed.1
  obtain ⟨hasBody, statement, kind, declarator, isName⟩ := firstLocal_spec first
  have around : method.statementAround = none := by simpa using free
  obtain ⟨leads, reports⟩ := declarationsInScope_methodLocals built (.refl e) java shape members selected
    isMethod inBody hasBody statement kind declarator isName after
  refine ⟨e, u, method, body, declaration, v, name, ds, e', built, java, shape, members, located,
    selected, isMethod, inBody, hasBody, statement, kind, declarator, isName, after, around, asked, leads,
    fun b binding => ?_⟩
  have reported := reports b binding
  rw [around, asked] at reported
  exact reported

/-- At the method `m` of the anonymous class, the local variable `v` is not reported. -/
theorem localInAnonymous_misses_local :
    ¬ ∀ (c : Context) (e e' : Environment) (unitName : String) (us : List UnitLocation)
        (u : UnitLocation) (method body declaration v name : Node) (ds : List BindingId),
      Environment.build c = .ok e → c.document.tree.IsJava → c.document.tree.HasLeafNames →
      c.document.tree.HasMembersInBodies →
      c.locate (.named .methods (some unitName) none) = .ok us → u ∈ us →
      e.context.firstCovered u.toLocation = some method →
      method.kind.isMethodDeclaration = true →
      method.children.find? (·.kind.isBlock) = some body → declaration ∈ body.children →
      declaration.kind = .localVariableDeclaration → v ∈ declaration.declarators →
      v.nameNode = some name →
      outcome (declarationsInScope (.location u.toLocation) .onlyVariables) e = (.ok ds, e') →
      ∃ w, .variable w ∈ ds ∧ (e'.store.variable w).name = c.document.textOf name := by
  intro claim
  obtain ⟨java, shape, members⟩ := localInAnonymous_shape
  obtain ⟨e, u, method, body, declaration, v, name, ds, e', built, located, selected, isMethod, inBody,
    first, -, -, -, asked, reported⟩ := localsAt_spec localsAt_computed.2
  obtain ⟨hasBody, statement, kind, declarator, isName⟩ := firstLocal_spec first
  obtain ⟨w, member, -⟩ := claim _ e e' "m" [u] u method body declaration v name ds built java shape
    members located (List.mem_singleton_self u) selected isMethod hasBody statement kind declarator
    isName asked
  rw [List.map_eq_nil_iff.1 reported] at member
  cases member

end Scope

end JavaScope
