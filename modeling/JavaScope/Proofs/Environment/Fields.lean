import JavaScope.Proofs.Environment.Kinds

/-!
# Which nodes declare fields

Enum constants, the declarators of field declarations and the parameters in the header of a record
declare fields. The variables of all other nodes, which are declared in code, are no fields.
-/

namespace JavaScope

namespace Node

/-- The list of parameters in the header of a record. -/
def IsRecordHeader (n : Node) : Prop :=
  n.field = some .parameters ∧ ∃ up : Node, n ∈ up.children ∧ up.kind = .recordDeclaration

/-- An enum constant, a declarator of a field declaration, or a parameter in the header of a
record. -/
def DeclaresField (n : Node) : Prop :=
  n.kind = .enumConstant ∨ (∃ up : Node, n ∈ up.declarators ∧ up.kind.isFieldDeclaration = true) ∨
    n.kind = .formalParameter ∧ ∃ list : Node, n ∈ list.children ∧ list.IsRecordHeader

variable {n : Node} {s : Site} {around : Enclosure}

theorem DeclaresField.kind {t : Tree} (h : n.DeclaresField) (regular : t.IsRegular)
    (hn : n ∈ t.root.preorder) :
    n.kind = .enumConstant ∨ n.kind = .formalParameter ∨
      n.kind = .variableDeclarator ∧ ∃ up, n.parent = some up ∧ up.kind.isFieldDeclaration = true := by
  rcases h with kind | ⟨up, declarator, isDeclaration⟩ | ⟨kind, -⟩
  · exact .inl kind
  · have above := parent_of_mem_children (List.mem_filter.1 declarator).1
    have shape := regular.parts up (Tree.mem_of_parent hn above).1
    exact .inr (.inr ⟨shape.declarators isDeclaration n declarator, up, above, isDeclaration⟩)
  · exact .inr (.inl kind)

/-! ## The sites of fields -/

theorem declaresField_of_mem_recordComponents (isRecord : n.kind = .recordDeclaration)
    (h : s ∈ Plan.recordComponents n) : s.node.DeclaresField := by
  obtain ⟨list, below, field, each, inner, kind, hs⟩ := mem_recordComponents_cases h
  rw [(of_mem_named hs).2]
  exact .inr (.inr ⟨kind, list, inner, field, n, below, isRecord⟩)

/-- A field that a node brings is declared by a node that declares fields. -/
theorem Brings.declaresField (brought : n.Brings around s) (isField : s.role = .field) :
    s.node.DeclaresField := by
  cases brought with
  | type | anonymousClass | method => cases isField
  | typeParameter h =>
    rw [role_of_mem_typeParameters h] at isField
    cases isField
  | recordComponent isRecord h => exact declaresField_of_mem_recordComponents isRecord h
  | parameter _ _ _ _ h =>
    rw [(of_mem_named h).1] at isField
    cases isField
  | field _ isDeclaration hc h =>
    rw [(of_mem_named h).2]
    exact .inr (.inl ⟨n, hc, isDeclaration⟩)
  | constant isConstant h =>
    rw [(of_mem_named h).2]
    exact .inl isConstant
  | code _ h =>
    rw [role_of_mem_inMethod h] at isField
    cases isField

/-- A field is declared by a node that declares fields. -/
theorem declaresField_of_mem_sites (isField : s.role = .field) (h : s ∈ n.sites around) :
    s.node.DeclaresField :=
  sites_induction (P := fun _ _ s => s.role = .field → s.node.DeclaresField) Brings.declaresField
    (fun _ _ declares => declares) h isField

end Node

/-- A parameter of a lambda expression stands directly below it or in its list of parameters. -/
theorem Tree.HasLeafNames.kind_above_parameter {t : Tree} (shape : t.HasLeafNames)
    {lambda list d : Node} (hlambda : lambda ∈ t.root.preorder)
    (kind : lambda.kind = .lambdaExpression) (below : list ∈ lambda.children)
    (field : list.field = some .parameters) (here : d = list ∨ d ∈ list.children) :
    ∀ up, d.parent = some up →
      up.kind ∈ [Kind.lambdaExpression, .formalParameters, .other "inferred_parameters"] := by
  intro up above
  rcases here with rfl | inner
  · rw [Node.parent_of_mem_children below] at above
    cases above
    simp [kind]
  · rw [Node.parent_of_mem_children inner] at above
    cases above
    have isList := ((shape.parts lambda hlambda).parameters list
      (List.mem_filter.2 ⟨below, by simp [field]⟩)).1
    simp only [List.mem_cons, List.not_mem_nil, or_false] at isList ⊢
    rcases isList with isName | isList
    · -- a name has nothing below it
      have hlist := Node.mem_preorder_of_mem_children hlambda below
      have leaf := shape.leaves list hlist (by simp [isName])
      rw [List.isEmpty_iff.1 leaf] at inner
      cases inner
    · exact .inr isList

namespace Environment

variable {c : Context} {e : Environment} {n : Node} {b : BindingId} {v : VariableId}

/-! ## The node of a binding -/

/-- What is filed under a node is declared by the node or by a variable that has it as its name. -/
theorem Files.exists_node (files : e.Files (sitesOf c)) (regular : c.document.tree.IsRegular)
    (hn : n ∈ c.document.root.preorder) (declared : e.declaredAt n = some b) :
    ∃ s ∈ sitesOf c, s.place = n ∧ s.StandsIn c.document.root ∧
      s.Declares e.declarations (e.store.profile b) := by
  obtain ⟨s, hs, key, declares⟩ := exists_of_mem_right files.entries (mem_of_declaredAt declared)
  have stand := Node.standsIn_of_inside_self regular.parts hs
  exact ⟨s, hs, List.inj_on_of_nodup_map regular.distinct stand.place_mem hn key.symm, stand,
    declares⟩

section Built

variable (built : build c = .ok e) (shape : c.document.tree.HasLeafNames)

include built shape

/-- The node of a field declares fields. -/
theorem declaresField_of_isField (filed : .variable v ∈ e.bindings)
    (isField : (e.store.variable v).isField = true) (node : (e.store.variable v).node = some n) :
    n.DeclaresField := by
  obtain ⟨s, hs, -, declares⟩ := (build_files built (Site.nodup_keys shape.toIsRegular _)).1.exists_site filed
  have here : (e.store.variable v).node = some s.node := declares.node
  rw [node] at here
  cases here
  have role : s.role = .field := by
    rw [← declares.role]
    show (e.store.variable v).profile.role = .field
    simp [VariableBinding.profile, isField]
  have member : s ∈ c.document.root.sitesInside ⟨none, none, false⟩ := hs
  rw [Node.sitesInside_eq] at member
  obtain ⟨child, -, hs⟩ := List.mem_flatMap.1 member
  exact Node.declaresField_of_mem_sites role hs

variable (hn : n ∈ c.document.root.preorder) (leads : e.bindingOf n = some (.variable v))

include hn leads

/-- A declarator or a parameter is the node of the variable that it leads to, or the declarator in a
varargs parameter that is. -/
theorem node_of_isCodeVariable (isVariable : n.kind.isCodeVariable = true) :
    ∃ m, (e.store.variable v).node = some m ∧
      (m = n ∨ m.kind = .spreadParameter ∧ n ∈ m.children) := by
  obtain ⟨name, named, there, -⟩ := declaredAt_of_isCodeVariable built shape hn isVariable leads
  obtain ⟨hname, isName⟩ := name_of_isCodeVariable shape hn isVariable named
  have regular := shape.toIsRegular
  have files := (build_files built (Site.nodup_keys regular _)).1
  obtain ⟨s, -, rfl, stand, declares⟩ := files.exists_node regular hname there
  refine ⟨s.node, declares.node, ?_⟩
  rcases stand.filed with ⟨here, itself⟩ | ⟨isOwner, named'⟩ | ⟨here, l, hl, -, inferred⟩
  · rw [← here] at itself
    exact absurd itself (Node.not_declaresItself_of_isName isName)
  · -- both nodes have the name, and one of them may be a varargs parameter around the other
    obtain ⟨-, below | ⟨isSpread, inner, above, below, isInner⟩⟩ :=
        Node.variableName_cases (.inr isVariable) named <;>
      obtain ⟨-, below' | ⟨isSpread', inner', above', below', -⟩⟩ := Site.place_cases isOwner named'
    · exact .inl (Node.eq_of_mem_children below' below)
    · rw [Node.eq_of_mem_children below' below] at above'
      exact .inr ⟨isSpread', above'⟩
    · rw [Node.eq_of_mem_children below' below] at isOwner
      exact absurd isOwner (Site.not_isVariable_inner isSpread above isInner)
    · rw [Node.eq_of_mem_children below' below] at above'
      exact .inl (Node.eq_of_mem_children above' above)
  · rw [← here] at inferred
    exact absurd inferred
      (Node.variableName_not_inferred (.inr isVariable) named (regular.parts l hl))

/-- A name among the parameters of a lambda expression is the node of the variable that it leads
to. -/
theorem node_of_identifier (isName : n.kind = .identifier)
    (among : ∀ up, n.parent = some up →
      up.kind ∈ [Kind.lambdaExpression, .formalParameters, .other "inferred_parameters"]) :
    (e.store.variable v).node = some n := by
  have notVariable : ∀ up, n.parent = some up →
      ¬ up.DeclaresItself ∧ ¬ up.IsVariable ∧ up.kind ≠ .variableDeclarator := by
    intro up above
    have list := among up above
    simp only [List.mem_cons, List.not_mem_nil, or_false] at list
    rcases list with kind | kind | kind <;>
      simp [kind, Node.DeclaresItself, Node.isAnonymousBody, Node.IsVariable,
        Kind.isTypeDeclaration, Kind.isMethodDeclaration]
  rcases bindingOf_cases leads with here | ⟨name, named, -⟩ | ⟨up, name, above, named, same, there⟩
  · have regular := shape.toIsRegular
    have files := (build_files built (Site.nodup_keys regular _)).1
    obtain ⟨s, -, rfl, stand, declares⟩ := files.exists_node regular hn here
    have node : (e.store.variable v).node = some s.node := declares.node
    rcases stand.filed with ⟨place, -⟩ | ⟨isVariable, named⟩ | ⟨place, -⟩
    · rw [node, place]
    · obtain ⟨-, below | ⟨-, inner, -, below, isInner⟩⟩ := Site.place_cases isVariable named
      · exact absurd isVariable (notVariable s.node (Node.parent_of_mem_children below)).2.1
      · exact absurd isInner (notVariable inner (Node.parent_of_mem_children below)).2.2
    · rw [node, place]
  · rw [Node.nameNode_of_leaf (shape.leaves n hn (by simp [isName]))] at named
    cases named
  · exact absurd (declaresItself_of_name built shape hn above named same there).1
      (notVariable up above).1

omit hn in
/-- What leads to a field whose node is known has a node that declares fields. -/
theorem declaresField_of_leads {m : Node} (isField : (e.store.variable v).isField = true)
    (node : (e.store.variable v).node = some m) : m.DeclaresField := by
  obtain ⟨key, filed⟩ := exists_mem_of_bindingOf leads
  exact declaresField_of_isField built shape (List.mem_map_of_mem filed) isField node

/-- A declarator or a parameter that declares no field leads to no field. -/
theorem isField_of_isCodeVariable (isVariable : n.kind.isCodeVariable = true)
    (noField : ¬ n.DeclaresField) : (e.store.variable v).isField = false := by
  obtain ⟨m, node, here⟩ := node_of_isCodeVariable built shape hn leads isVariable
  by_contra isField
  have declares := declaresField_of_leads built shape leads (by simpa using isField) node
  rcases here with rfl | ⟨isSpread, below⟩
  · exact noField declares
  · have member := (Tree.mem_of_parent hn (Node.parent_of_mem_children below)).1
    have kinds := declares.kind shape.toIsRegular member
    simp [isSpread] at kinds

/-- A name among the parameters of a lambda expression leads to no field. -/
theorem isField_of_identifier (isName : n.kind = .identifier)
    (among : ∀ up, n.parent = some up →
      up.kind ∈ [Kind.lambdaExpression, .formalParameters, .other "inferred_parameters"]) :
    (e.store.variable v).isField = false := by
  have node := node_of_identifier built shape hn leads isName among
  by_contra isField
  have declares := declaresField_of_leads built shape leads (by simpa using isField) node
  have kinds := declares.kind shape.toIsRegular hn
  simp [isName] at kinds

end Built

end Environment

end JavaScope
