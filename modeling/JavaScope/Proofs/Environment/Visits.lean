import JavaScope.Proofs.Environment.Fields
import JavaScope.Proofs.Environment.Spelling

/-!
# Where the first pass comes

The first pass goes down from the root of a file and enters a type and a method by the body, and the
declaration of a field by its declarators. So it comes to every lambda expression in code, and declares
its parameters.
-/

namespace JavaScope

namespace Node

/-- The node is not left out by a pass that enters types and methods by their bodies, and the
declarations of fields by their declarators. -/
def StandsInBodies (n : Node) : Prop :=
  ∀ m ∈ n.climb, ∀ up ∈ m.parent,
    ((up.kind.isTypeDeclaration || up.kind.isMethodDeclaration) = true → m.field = some .body) ∧
      (up.kind.isFieldDeclaration = true → m.field = some .declarator)

instance (n : Node) : Decidable n.StandsInBodies :=
  inferInstanceAs (Decidable (∀ _ ∈ _, _))

theorem StandsInBodies.of_child {n c : Node} (h : c.StandsInBodies) (hc : c ∈ n.children) :
    n.StandsInBodies := by
  intro m hm
  apply h m
  rw [climb, above, (mem_children_iff.1 hc).2]
  exact List.mem_cons_of_mem _ hm

/-- The parameters of a lambda expression but for those with a variable number of arguments. -/
def lambdaParameters (n : Node) : List Node :=
  match n.childByField .parameters with
  | none => []
  | some list =>
    if list.kind == .identifier then [list]
    else list.namedChildren.filter fun each =>
      each.kind == .identifier || list.kind == .formalParameters && each.kind == .formalParameter

/-- A parameter is a name alone, or stands with its type in the list. -/
theorem mem_lambdaParameters {n q : Node} (h : q ∈ n.lambdaParameters) :
    q ∈ Draft.inferredParameters n ∨ q.kind = .formalParameter ∧
      ∃ list ∈ n.children, list.field = some .parameters ∧ list.kind = .formalParameters ∧
        q ∈ list.namedChildren := by
  unfold lambdaParameters at h
  unfold Draft.inferredParameters
  cases found : n.childByField .parameters with
  | none => simp [found] at h
  | some list =>
    obtain ⟨below, field⟩ := mem_children_of_childByField found
    simp only [found] at h ⊢
    split at h
    · next single =>
      rw [if_pos single]
      exact .inl h
    · next several =>
      rw [if_neg several]
      obtain ⟨member, kind⟩ := List.mem_filter.1 h
      simp only [Bool.or_eq_true, Bool.and_eq_true, beq_iff_eq] at kind
      rcases kind with isName | ⟨isList, isParameter⟩
      · exact .inl (List.mem_filter.2 ⟨member, by simp [isName]⟩)
      · exact .inr ⟨isParameter, list, below, field, isList, member⟩

theorem mem_preorder_of_mem_lambdaParameters {n q : Node} (h : q ∈ n.lambdaParameters) :
    q ∈ n.preorder := by
  rcases mem_lambdaParameters h with inferred | ⟨-, list, below, -, -, member⟩
  · exact mem_preorder_of_mem_inferredParameters inferred
  · have inner := (List.mem_filter.1 member).1
    exact mem_preorder_of_child below (mem_preorder_of_child inner (mem_preorder_self q))

/-- The name of a parameter of a lambda expression, which may be all there is of it. -/
def parameterName (q : Node) : Option Node :=
  if q.kind == .identifier then some q else q.nameNode

/-- What the first pass does at a node that is no declaration of a type, a member or a constant. -/
theorem sites_of_code {n : Node} (around : Enclosure)
    (kind : n.kind ∈ [Kind.lambdaExpression, .formalParameters, .formalParameter,
      .localVariableDeclaration, .variableDeclarator]) :
    n.sites around = Plan.inMethod n around.method ++ n.sitesInside around := by
  rw [sites_eq]
  simp only [List.mem_cons, List.not_mem_nil, or_false] at kind
  rcases kind with kind | kind | kind | kind | kind <;>
    simp [kind, isAnonymousBody, isInitializerBlock, Kind.isTypeDeclaration,
      Kind.isMethodDeclaration, Kind.isFieldDeclaration]

end Node

namespace Environment

variable {c : Context} {n m : Node}

/-- The first pass comes to the node. -/
def Visits (c : Context) (n : Node) : Prop :=
  ∃ around, ∀ s ∈ n.sites around, s ∈ sitesOf c

/-- The first pass comes to the nodes directly below the node. -/
def Enters (c : Context) (n : Node) : Prop :=
  ∃ around, ∀ s ∈ n.sitesInside around, s ∈ sitesOf c

theorem enters_root (c : Context) : Enters c c.document.root :=
  ⟨⟨none, none, false⟩, fun _ => id⟩

theorem Enters.visits (h : Enters c n) (below : m ∈ n.children) (named : m.isNamed = true) :
    Visits c m := by
  obtain ⟨around, all⟩ := h
  refine ⟨around, fun s hs => all s ?_⟩
  rw [Node.sitesInside_eq]
  exact List.mem_flatMap.2 ⟨m, List.mem_filter.2 ⟨below, named⟩, hs⟩

/-- The node directly below, which the pass enters at once, is a body or a declarator. -/
def IsPart (m : Node) : Prop :=
  ∃ up ∈ m.parent, (up.kind.isTypeDeclaration || up.kind.isMethodDeclaration ||
    up.kind.isFieldDeclaration) = true

theorem Visits.enters (h : Visits c n) (below : m ∈ n.children) (fits : n.Fits)
    (stands : m.StandsInBodies) : Enters c n ∨ Enters c m ∧ IsPart m := by
  obtain ⟨around, all⟩ := h
  have above := Node.parent_of_mem_children below
  obtain ⟨body, declarator⟩ := stands m List.mem_cons_self n above
  have isPart : (n.kind.isTypeDeclaration || n.kind.isMethodDeclaration ||
      n.kind.isFieldDeclaration) = true → IsPart m := fun declares => ⟨n, above, declares⟩
  have first : m.field = some .body → ∀ around, n.sitesOfField .body around = m.sitesInside around := by
    intro field around
    have found : (n.children.find? fun c => c.field == some .body) = some m :=
      Node.find?_field (fits.single .body (by simp)) below field
    rw [Node.sitesOfField, found]
  have inside : ∀ {m : Node} {around}, (∀ s ∈ m.sitesInside around, s ∈ sitesOf c) → Enters c m :=
    fun h => ⟨_, h⟩
  rw [Node.sites_eq] at all
  split at all
  · next isType =>
    rw [first (body (by simp [isType]))] at all
    exact .inr ⟨inside fun s hs => all s <| List.mem_cons_of_mem _ <| List.mem_append_right _ <|
      List.mem_append_right _ hs, isPart (by simp [isType])⟩
  split at all
  · exact .inl (inside fun s hs => all s (List.mem_cons_of_mem _ hs))
  split at all
  · next isMethod =>
    rw [first (body (by simp [isMethod]))] at all
    exact .inr ⟨inside fun s hs => all s <| List.mem_cons_of_mem _ <| List.mem_append_right _ <|
      List.mem_append_right _ hs, isPart (by simp [isMethod])⟩
  split at all
  · next isField =>
    have isDeclarator : m ∈ n.declarators :=
      List.mem_filter.2 ⟨below, by simp [declarator isField]⟩
    exact .inr ⟨inside fun s hs => all s <| List.mem_flatMap.2
      ⟨m, isDeclarator, List.mem_append_right _ hs⟩, isPart (by simp [isField])⟩
  split at all
  · exact .inl (inside fun s hs => all s (List.mem_append_right _ hs))
  split at all
  · exact .inl (inside all)
  · exact .inl (inside fun s hs => all s (List.mem_append_right _ hs))

/-- The first pass comes to every node that stands in bodies, or enters it with the one above. -/
theorem visits_or_enters (java : c.document.tree.IsJava) (hn : n ∈ c.document.root.preorder)
    (stands : n.StandsInBodies) (code : n.isNamed = true) :
    Visits c n ∨ Enters c n ∧ (n = c.document.root ∨ IsPart n) := by
  obtain ⟨sub, ups⟩ := n
  induction ups generalizing sub with
  | nil =>
    rcases Node.eq_or_child_of_mem_preorder hn with here | ⟨up, -, below⟩
    · rw [here]
      exact .inr ⟨enters_root c, .inl rfl⟩
    · cases Node.parent_of_mem_children below
  | cons up rest ih =>
    obtain ⟨hup, below⟩ := Tree.mem_of_parent hn rfl
    have fits := java.fits _ hup
    have named : Node.isNamed ⟨up, rest⟩ = true := fits.isNamed below
    rcases ih up hup (stands.of_child below) named with visits | ⟨enters, -⟩
    · rcases visits.enters below fits stands with enters | ⟨enters, isPart⟩
      · exact .inl (enters.visits below code)
      · exact .inr ⟨enters, .inr isPart⟩
    · exact .inl (enters.visits below code)

/-- The pass comes to a node of code that is no body and no declarator. -/
theorem visits_of_code (java : c.document.tree.IsJava) (regular : c.document.tree.IsRegular)
    (hn : n ∈ c.document.root.preorder) (stands : n.StandsInBodies)
    (inner : n ≠ c.document.root) (typeBody : n.kind.isTypeBody = false)
    (block : n.kind.isBlock = false) (declarator : n.kind ≠ .variableDeclarator)
    (named : n.isNamed = true) : Visits c n := by
  rcases visits_or_enters java hn stands named with visits | ⟨-, here | ⟨up, above, declares⟩⟩
  · exact visits
  · exact absurd here inner
  · obtain ⟨hup, below⟩ := Tree.mem_of_parent hn above
    obtain ⟨body, ofField⟩ := stands n List.mem_cons_self up above
    have parts := regular.parts up hup
    exfalso
    simp only [Bool.or_eq_true] at declares
    rcases declares with (isType | isMethod) | isField
    · have isBody := parts.typeBody isType n
        (List.mem_filter.2 ⟨below, by simp [body (by simp [isType])]⟩)
      rw [typeBody] at isBody
      cases isBody
    · have isBlock := parts.methodBody isMethod n
        (List.mem_filter.2 ⟨below, by simp [body (by simp [isMethod])]⟩)
      rw [block] at isBlock
      cases isBlock
    · exact declarator (parts.declarators isField n
        (List.mem_filter.2 ⟨below, by simp [ofField isField]⟩))

/-! ## The parameters of lambda expressions -/

variable {e : Environment} {q : Node}

/-- The pass meets the parameters of a lambda expression as local variables. -/
theorem Visits.exists_site (h : Visits c n) (fits : ∀ m ∈ n.preorder, m.Fits)
    (kind : n.kind = .lambdaExpression) (hq : q ∈ n.lambdaParameters)
    (named : q.kind = .identifier ∨ ∃ name, q.nameNode = some name) :
    ∃ s ∈ sitesOf c, s.role = .localVariable ∧ s.node = q := by
  obtain ⟨around, all⟩ := h
  rw [Node.sites_of_code around (by simp [kind])] at all
  rcases Node.mem_lambdaParameters hq with inferred | ⟨isParameter, list, below, -, isList, member⟩
  · refine ⟨⟨.localVariable, q, q, none, around.method⟩, all _ (List.mem_append_left _ ?_), rfl, rfl⟩
    rw [Plan.inMethod, kind]
    exact List.mem_map_of_mem inferred
  · obtain ⟨inner, code⟩ := List.mem_filter.1 member
    have enters : Enters c n := ⟨around, fun s hs => all s (List.mem_append_right _ hs)⟩
    have listNamed : list.isNamed = true :=
      (fits list (Node.mem_preorder_of_child below (Node.mem_preorder_self list))).isNamed inner
    obtain ⟨around', all'⟩ := enters.visits below listNamed
    rw [Node.sites_of_code around' (by simp [isList])] at all'
    have entersList : Enters c list := ⟨around', fun s hs => all' s (List.mem_append_right _ hs)⟩
    obtain ⟨last, sites⟩ := entersList.visits inner code
    obtain ⟨name, isName⟩ := named.resolve_left (by simp [isParameter])
    refine ⟨⟨.localVariable, q, name, none, last.method⟩, sites _ ?_, rfl, rfl⟩
    rw [Node.sites_of_code last (by simp [isParameter])]
    apply List.mem_append_left
    have typed : Draft.isLambdaParameter q = true := by
      simp [Draft.isLambdaParameter, isParameter, Node.parent_of_mem_children inner, isList,
        Node.parent_of_mem_children below, kind]
    simp [Plan.inMethod, isParameter, typed, Plan.named, isName]

/-- What the pass meets as a local variable leads to a variable that is no field. -/
theorem exists_variable (built : build c = .ok e) (regular : c.document.tree.IsRegular) {s : Site}
    (hs : s ∈ sitesOf c) (role : s.role = .localVariable) :
    ∃ v, e.bindingOf s.node = some (.variable v) ∧ (e.store.variable v).isField = false ∧
      (e.store.variable v).node = some s.node := by
  have nodup := Site.nodup_keys regular ⟨none, none, false⟩
  have files := (build_files built nodup).1
  obtain ⟨⟨key, b⟩, entry, rfl, declares⟩ := exists_of_mem_right files.entries.flip hs
  have filed := (files.declaredAt_eq_some_iff nodup).2 entry
  have leads := files.bindingOf_node regular hs filed
  have isLocal := declares.role
  rw [role] at isLocal
  have kind : b.kind = .variable := by
    rw [← Store.kind_profile e.store, isLocal]
    rfl
  cases b with
  | «variable» v =>
    refine ⟨v, leads, ?_, declares.node⟩
    cases field : (e.store.variable v).isField with
    | false => rfl
    | true =>
      have isField : (e.store.variable v).profile.role = .localVariable := isLocal
      simp [VariableBinding.profile, field] at isField
  | type t => cases kind
  | method m => cases kind

/-- A parameter of a lambda expression leads to a variable with its name that is no field. -/
theorem exists_variable_of_parameter (built : build c = .ok e) (java : c.document.tree.IsJava)
    (shape : c.document.tree.HasLeafNames) (hn : n ∈ c.document.root.preorder)
    (stands : n.StandsInBodies) (inner : n ≠ c.document.root) (kind : n.kind = .lambdaExpression)
    (hq : q ∈ n.lambdaParameters) {name : Node} (isName : q.parameterName = some name) :
    ∃ v, e.bindingOf q = some (.variable v) ∧ (e.store.variable v).isField = false ∧
      (e.store.variable v).name = c.document.textOf name := by
  have named : n.isNamed = true := by
    by_contra token
    have leaf := (java.fits n hn).token (by simpa using token)
    rw [List.isEmpty_iff] at leaf
    simp [Node.lambdaParameters, Node.childByField, leaf] at hq
  have spelled : (q.kind = .identifier ∨ ∃ name, q.nameNode = some name) ∧
      c.document.spelling q = c.document.textOf name := by
    rw [Document.spelling]
    unfold Node.parameterName at isName
    split at isName
    · next kind =>
      cases isName
      have kind : q.kind = .identifier := by simpa using kind
      have hq' := Node.mem_preorder_trans hn (Node.mem_preorder_of_mem_lambdaParameters hq)
      rw [Node.nameNode_of_leaf (shape.leaves q hq' (by simp [kind]))]
      exact ⟨.inl kind, rfl⟩
    · rw [isName]
      exact ⟨.inr ⟨name, rfl⟩, rfl⟩
  have visits := visits_of_code java shape.toIsRegular hn stands inner (by rw [kind]; rfl)
    (by rw [kind]; rfl) (by simp [kind]) named
  obtain ⟨s, hs, role, rfl⟩ := visits.exists_site
    (fun m hm => java.fits m (Node.mem_preorder_trans hn hm)) kind hq spelled.1
  obtain ⟨v, leads, isField, node⟩ := exists_variable built shape.toIsRegular hs role
  refine ⟨v, leads, isField, ?_⟩
  rw [build_spells built shape v s.node node]
  exact spelled.2

/-! ## The declarators of local variables -/

/-- A declarator of a local variable that stands in bodies leads to a variable. -/
theorem exists_variable_of_declarator {declaration v name : Node} (built : build c = .ok e)
    (java : c.document.tree.IsJava) (regular : c.document.tree.IsRegular)
    (hn : declaration ∈ c.document.root.preorder) (inner : declaration ≠ c.document.root)
    (kind : declaration.kind = .localVariableDeclaration) (declarator : v ∈ declaration.declarators)
    (stands : v.StandsInBodies) (isName : v.nameNode = some name) :
    ∃ w, e.bindingOf v = some (.variable w) := by
  have fits := java.fits declaration hn
  have below := (List.mem_filter.1 declarator).1
  obtain ⟨named, isDeclarator⟩ := fits.declarator kind v declarator
  obtain ⟨around, sites⟩ := visits_of_code java regular hn (stands.of_child below) inner
    (by rw [kind]; rfl) (by rw [kind]; rfl) (by rw [kind]; nofun) (fits.isNamed below)
  rw [Node.sites_of_code around (by simp [kind])] at sites
  have enters : Enters c declaration := ⟨around, fun s hs => sites s (List.mem_append_right _ hs)⟩
  obtain ⟨last, sites⟩ := enters.visits below named
  rw [Node.sites_of_code last (by simp [isDeclarator])] at sites
  have met : (⟨.localVariable, v, name, none, last.method⟩ : Site) ∈ sitesOf c := by
    refine sites _ (List.mem_append_left _ ?_)
    simp [Plan.inMethod, isDeclarator, Node.parent_of_mem_children below, kind, Plan.named, isName]
  obtain ⟨w, leads, -⟩ := exists_variable built regular met rfl
  exact ⟨w, leads⟩

end Environment

end JavaScope
