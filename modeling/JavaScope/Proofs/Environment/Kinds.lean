import JavaScope.Proofs.Environment.Names

/-!
# The kinds of what nodes declare

A node leads to a binding of the kind that its declaration is of: the declarators and parameters of
code and the names alone of a lambda expression to variables, the declarations of types and type
parameters to types.
-/

namespace JavaScope

theorem Store.kind_profile (s : Store) (b : BindingId) : (s.profile b).role.kind = b.kind := by
  cases b with
  | type t =>
    show (s.type t).profile.role.kind = _
    unfold TypeBinding.profile
    cases (s.type t).isTypeVariable <;> cases (s.type t).isAnonymous <;> rfl
  | «variable» v =>
    show (s.variable v).profile.role.kind = _
    unfold VariableBinding.profile
    cases (s.variable v).isField <;> rfl
  | method m => rfl

namespace Node

variable {n : Node}

theorem declaresItself_of_declaresType (h : n.kind.declaresType = true) : n.DeclaresItself := by
  rcases Bool.or_eq_true_iff.1 h with h | h
  · exact .inl h
  · exact .inr (.inr (.inl (by simpa using h)))

theorem declaredKind_of_declaresType (h : n.kind.declaresType = true) :
    n.declaredKind = .type := by
  rcases Bool.or_eq_true_iff.1 h with h | h <;> simp [declaredKind, h]

theorem not_declaresItself_of_isCodeVariable (h : n.kind.isCodeVariable = true) :
    ¬ n.DeclaresItself := by
  unfold DeclaresItself isAnonymousBody
  revert h
  cases n.kind <;> simp [Kind.isCodeVariable, Kind.isTypeDeclaration, Kind.isMethodDeclaration]

theorem not_declaresItself_of_isName (h : n.kind ∈ [Kind.identifier, .other "underscore_pattern"]) :
    ¬ n.DeclaresItself := by
  unfold DeclaresItself isAnonymousBody
  simp only [List.mem_cons, List.not_mem_nil, or_false] at h
  rcases h with kind | kind <;> simp [kind, Kind.isTypeDeclaration, Kind.isMethodDeclaration]

end Node

namespace Environment

variable {c : Context} {e : Environment} {n : Node} {b : BindingId}

/-- What is filed under a node is what the node declares itself, or a variable with this name. -/
theorem Files.kind_of_declaredAt (files : e.Files (sitesOf c))
    (regular : c.document.tree.IsRegular) (hn : n ∈ c.document.root.preorder)
    (declared : e.declaredAt n = some b) :
    n.DeclaresItself ∧ b.kind = n.declaredKind ∨
      n.kind ∈ [Kind.identifier, .other "underscore_pattern"] ∧ b.kind = .variable := by
  obtain ⟨s, hs, key, declares⟩ := exists_of_mem_right files.entries (mem_of_declaredAt declared)
  have stand := Node.standsIn_of_inside_self regular.parts hs
  have place : s.place = n :=
    List.inj_on_of_nodup_map regular.distinct stand.place_mem hn key.symm
  have kind : b.kind = s.node.declaredKind := by
    rw [← stand.kind, ← declares.role, Store.kind_profile]
  rcases stand.filed with ⟨here, itself⟩ | ⟨isVariable, named⟩ | ⟨here, l, -, -, inferred⟩
  · rw [place] at here
    rw [← here] at itself kind
    exact .inl ⟨itself, kind⟩
  · have isName := Site.kind_of_name regular.parts stand isVariable named
    rw [place] at isName
    exact .inr ⟨isName, kind.trans isVariable.declaredKind⟩
  · have isName := (Node.mem_inferredParameters inferred).1
    rw [place] at here
    rw [← here] at isName kind
    exact .inr ⟨by simp [isName], kind.trans (Node.declaredKind_of_identifier isName)⟩

section Built

variable (built : build c = .ok e) (shape : c.document.tree.HasLeafNames)
  (hn : n ∈ c.document.root.preorder)

include built shape

theorem kind_of_declaredAt (hn : n ∈ c.document.root.preorder) (declared : e.declaredAt n = some b) :
    n.DeclaresItself ∧ b.kind = n.declaredKind ∨
      n.kind ∈ [Kind.identifier, .other "underscore_pattern"] ∧ b.kind = .variable :=
  (build_files built (Site.nodup_keys shape.toIsRegular _)).1.kind_of_declaredAt shape.toIsRegular hn
    declared

include hn

/-- A name that leads to the binding of the node above is a name of a declaration. -/
theorem declaresItself_of_name {up name : Node} (above : n.parent = some up)
    (named : up.nameNode = some name) (same : name.key = n.key)
    (declared : e.declaredAt up = some b) :
    up.DeclaresItself ∧ n.kind ∈ [Kind.identifier, .typeIdentifier, .other "underscore_pattern"] := by
  obtain ⟨hup, below⟩ := Tree.mem_of_parent hn above
  rcases kind_of_declaredAt built shape hup declared with ⟨itself, -⟩ | ⟨isName, -⟩
  · have member := Node.mem_preorder_of_mem_children hup (itself.name_mem named)
    have here : name = n := List.inj_on_of_nodup_map shape.distinct member hn same
    rw [here] at named
    exact ⟨itself, shape.kind_of_name hup itself named⟩
  · -- a name has nothing below it
    have leaf := shape.leaves up hup (by simp only [List.mem_cons, List.not_mem_nil] at isName ⊢; tauto)
    rw [List.isEmpty_iff.1 leaf] at below
    cases below

omit built in
/-- The name of a declarator or a parameter. -/
theorem name_of_isCodeVariable (isVariable : n.kind.isCodeVariable = true) {name : Node}
    (named : n.nameNode = some name) : name ∈ c.document.root.preorder ∧
      name.kind ∈ [Kind.identifier, .other "underscore_pattern"] := by
  have kinds : n.kind.declaresName = true := by
    revert isVariable
    cases n.kind <;> simp [Kind.isCodeVariable, Kind.declaresName]
  rcases Node.nameNode_cases named with ⟨below, field⟩ |
    ⟨-, inner, above, below, field, kind⟩ | ⟨kind, -⟩
  · exact ⟨Node.mem_preorder_of_mem_children hn below,
      (shape.parts n hn).name kinds name (List.mem_filter.2 ⟨below, by simp [field]⟩)⟩
  · have member := Node.mem_preorder_of_mem_children hn above
    exact ⟨Node.mem_preorder_of_mem_children member below, (shape.parts inner member).name
      (by simp [kind, Kind.declaresName]) name (List.mem_filter.2 ⟨below, by simp [field]⟩)⟩
  · simp [kind, Kind.isCodeVariable] at isVariable

/-- A declarator or a parameter leads to its own name's binding, which is a variable. -/
theorem declaredAt_of_isCodeVariable (isVariable : n.kind.isCodeVariable = true)
    (declared : e.bindingOf n = some b) :
    ∃ name, n.nameNode = some name ∧ e.declaredAt name = some b ∧ b.kind = .variable := by
  have notName : n.kind ∉ [Kind.identifier, .typeIdentifier, .other "underscore_pattern"] := by
    revert isVariable
    cases n.kind <;> simp [Kind.isCodeVariable]
  rcases bindingOf_cases declared with here | ⟨name, named, there⟩ | ⟨up, name, above, named, same, there⟩
  · rcases kind_of_declaredAt built shape hn here with ⟨itself, -⟩ | ⟨kind, -⟩
    · exact absurd itself (Node.not_declaresItself_of_isCodeVariable isVariable)
    · simp only [List.mem_cons, List.not_mem_nil, or_false] at kind notName
      tauto
  · obtain ⟨hname, isName⟩ := name_of_isCodeVariable shape hn isVariable named
    rcases kind_of_declaredAt built shape hname there with ⟨itself, -⟩ | ⟨-, kind⟩
    · exact absurd itself (Node.not_declaresItself_of_isName isName)
    · exact ⟨name, named, there, kind⟩
  · exact absurd (declaresItself_of_name built shape hn above named same there).2 notName

/-- A name in something other than a declaration leads to a variable. -/
theorem kind_of_identifier (isName : n.kind = .identifier)
    (inner : ∀ up, n.parent = some up → ¬ up.DeclaresItself) (declared : e.bindingOf n = some b) :
    b.kind = .variable := by
  rcases bindingOf_cases declared with here | ⟨name, named, -⟩ | ⟨up, name, above, named, same, there⟩
  · rcases kind_of_declaredAt built shape hn here with ⟨itself, -⟩ | ⟨-, kind⟩
    · exact absurd isName itself.kind_ne_identifier
    · exact kind
  · rw [Node.nameNode_of_leaf (shape.leaves n hn (by simp [isName]))] at named
    cases named
  · exact absurd (declaresItself_of_name built shape hn above named same there).1 (inner up above)

/-- A declaration of a type or a type parameter leads to what is filed under it, which is a type. -/
theorem declaredAt_of_declaresType (isType : n.kind.declaresType = true)
    (declared : e.bindingOf n = some b) : e.declaredAt n = some b ∧ b.kind = .type := by
  have itself := Node.declaresItself_of_declaresType isType
  have notName : n.kind ∉ [Kind.identifier, .typeIdentifier, .other "underscore_pattern"] := by
    revert isType
    cases n.kind <;> simp [Kind.declaresType, Kind.isTypeDeclaration]
  rcases bindingOf_cases declared with here | ⟨name, named, there⟩ | ⟨up, name, above, named, same, there⟩
  · rcases kind_of_declaredAt built shape hn here with ⟨-, kind⟩ | ⟨kind, -⟩
    · exact ⟨here, by rw [kind, Node.declaredKind_of_declaresType isType]⟩
    · exact absurd (by simp only [List.mem_cons, List.not_mem_nil] at kind ⊢; tauto) notName
  · -- the name of a type is filed nowhere
    have regular := shape.toIsRegular
    have member := Node.mem_preorder_of_mem_children hn (itself.name_mem named)
    have files := (build_files built (Site.nodup_keys regular _)).1
    have free := files.declaredAt_eq_none regular member fun s hs =>
      shape.place_ne_name hn itself named (Node.standsIn_of_inside_self regular.parts hs)
    rw [free] at there
    cases there
  · exact absurd (declaresItself_of_name built shape hn above named same there).2 notName

theorem kind_of_declaresType (isType : n.kind.declaresType = true)
    (declared : e.bindingOf n = some b) : b.kind = .type :=
  (declaredAt_of_declaresType built shape hn isType declared).2

end Built

end Environment

end JavaScope
