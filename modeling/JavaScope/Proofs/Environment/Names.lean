import JavaScope.Proofs.Environment.Filing
import JavaScope.Proofs.Environment.Places

/-!
# From a binding to its node and back

The first pass loses no binding, and the node and the name of a declaration lead back to the binding
they declare, by one of the three ways in which a binding is looked up.
-/

namespace JavaScope

/-- A regular tree in which names are leaves and bodies have none. -/
structure Tree.HasLeafNames (t : Tree) : Prop extends t.IsRegular where
  leaves : ∀ n ∈ t.root.preorder,
    n.kind ∈ [Kind.identifier, .typeIdentifier, .other "underscore_pattern"] →
      n.children.isEmpty = true
  bodies : ∀ n ∈ t.root.preorder, n.kind = .classBody → n.nameNode.isNone = true

instance (t : Tree) : Decidable t.HasLeafNames :=
  decidable_of_iff (t.IsRegular ∧ (∀ n ∈ t.root.preorder,
      n.kind ∈ [Kind.identifier, .typeIdentifier, .other "underscore_pattern"] →
        n.children.isEmpty = true) ∧
      ∀ n ∈ t.root.preorder, n.kind = .classBody → n.nameNode.isNone = true)
    ⟨fun ⟨regular, leaves, bodies⟩ => ⟨regular, leaves, bodies⟩,
      fun h => ⟨h.toIsRegular, h.leaves, h.bodies⟩⟩

namespace Node

theorem nameNode_of_leaf {n : Node} (leaf : n.children.isEmpty = true) : n.nameNode = none := by
  rw [List.isEmpty_iff] at leaf
  cases named : n.nameNode with
  | none => rfl
  | some name =>
    rcases nameNode_cases named with ⟨below, -⟩ | ⟨-, inner, below, -⟩ | ⟨-, below, -⟩ <;>
      (rw [leaf] at below; cases below)

/-- A node that declares itself holds its name directly. -/
theorem DeclaresItself.name_mem {n name : Node} (h : n.DeclaresItself)
    (named : n.nameNode = some name) : name ∈ n.children := by
  rcases nameNode_cases named with ⟨below, -⟩ | ⟨kind, -⟩ | ⟨-, below, -⟩
  · exact below
  · simp [DeclaresItself, isAnonymousBody, kind, Kind.isTypeDeclaration,
      Kind.isMethodDeclaration] at h
  · exact below

theorem IsVariable.not_declaresItself {n : Node} (h : n.IsVariable) : ¬ n.DeclaresItself := by
  have kinds : n.kind ∈ [Kind.enumConstant, .formalParameter, .spreadParameter,
      .catchFormalParameter, .enhancedForStatement, .resource, .variableDeclarator] := by
    rcases h with h | ⟨h, -⟩
    · exact List.mem_append_left [Kind.variableDeclarator] h
    · simp [h]
  intro declares
  simp only [List.mem_cons, List.not_mem_nil, or_false] at kinds
  rcases kinds with kind | kind | kind | kind | kind | kind | kind <;>
    simp [DeclaresItself, isAnonymousBody, kind, Kind.isTypeDeclaration,
      Kind.isMethodDeclaration] at declares

end Node

namespace Tree.HasLeafNames

variable {t : Tree} (shape : t.HasLeafNames) {n name : Node} {s : Site}

include shape

/-- The name of a type, a type parameter or a method is an identifier. -/
theorem kind_of_name (hn : n ∈ t.root.preorder) (declares : n.DeclaresItself)
    (named : n.nameNode = some name) :
    name.kind ∈ [Kind.identifier, .typeIdentifier, .other "underscore_pattern"] := by
  have notBody : n.kind ≠ .classBody := fun kind => by
    have none := shape.bodies n hn kind
    rw [named] at none
    cases none
  have kinds : n.kind.declaresName = true := by
    rcases declares with isType | isAnonymous | kind | isMethod
    · revert isType
      cases n.kind <;> simp [Kind.isTypeDeclaration, Kind.declaresName]
    · simp only [Node.isAnonymousBody, Bool.and_eq_true, beq_iff_eq] at isAnonymous
      exact absurd isAnonymous.1 notBody
    · simp [kind, Kind.declaresName]
    · revert isMethod
      cases n.kind <;> simp [Kind.isMethodDeclaration, Kind.declaresName]
  rcases Node.nameNode_cases named with ⟨below, field⟩ | ⟨kind, -⟩ | ⟨-, -, kind⟩
  · have isName := (shape.parts n hn).name kinds name (List.mem_filter.2 ⟨below, by simp [field]⟩)
    simp only [List.mem_cons, List.not_mem_nil, or_false] at isName ⊢
    exact isName.imp_right .inr
  · simp [Node.DeclaresItself, Node.isAnonymousBody, kind, Kind.isTypeDeclaration,
      Kind.isMethodDeclaration] at declares
  · simp only [List.mem_cons, List.not_mem_nil, or_false]
    exact kind.symm.imp_right .inl

/-- Nothing is filed under the name of a type, a type parameter or a method. -/
theorem place_ne_name (hn : n ∈ t.root.preorder) (declares : n.DeclaresItself)
    (named : n.nameNode = some name) (stand : s.StandsIn t.root) : s.place ≠ name := by
  rintro rfl
  have below := declares.name_mem named
  have kind := shape.kind_of_name hn declares named
  have notList : n.kind ∉ [Kind.identifier, .formalParameters, .other "inferred_parameters",
      .variableDeclarator, .lambdaExpression] := by
    intro kind
    simp only [List.mem_cons, List.not_mem_nil, or_false] at kind
    rcases kind with kind | kind | kind | kind | kind <;>
      simp [Node.DeclaresItself, Node.isAnonymousBody, kind, Kind.isTypeDeclaration,
        Kind.isMethodDeclaration] at declares
  rcases stand.filed with ⟨here, declares'⟩ | ⟨isVariable, named'⟩ | ⟨here, l, hl, isLambda, inferred⟩
  · rw [← here] at declares'
    simp only [List.mem_cons, List.not_mem_nil, or_false] at kind
    rcases kind with kind | kind | kind <;>
      simp [Node.DeclaresItself, Node.isAnonymousBody, kind, Kind.isTypeDeclaration,
        Kind.isMethodDeclaration] at declares'
  · obtain ⟨-, below' | ⟨-, inner, -, below', isInner⟩⟩ := Site.place_cases isVariable named'
    · rw [Node.eq_of_mem_children below below'] at declares
      exact isVariable.not_declaresItself declares
    · rw [Node.eq_of_mem_children below below'] at notList
      simp [isInner] at notList
  · rw [← here] at inferred
    obtain ⟨-, list, below', field, rfl | inner⟩ := Node.mem_inferredParameters inferred
    · rw [Node.eq_of_mem_children below below'] at notList
      simp [isLambda] at notList
    · have isList := ((shape.parts l hl).parameters list
        (List.mem_filter.2 ⟨below', by simp [field]⟩)).1
      rw [Node.eq_of_mem_children below inner] at notList
      simp only [List.mem_cons, List.not_mem_nil, or_false] at isList notList
      grind

omit shape in
/-- Nothing is filed under the declaration of a variable. -/
theorem place_ne_variable (regular : t.IsRegular) (isVariable : n.IsVariable)
    (stand : s.StandsIn t.root) : s.place ≠ n := by
  rintro rfl
  rcases stand.filed with ⟨here, declares⟩ | ⟨hs, named⟩ | ⟨here, l, -, -, inferred⟩
  · rw [← here] at declares
    exact isVariable.not_declaresItself declares
  · have kind := Site.kind_of_name regular.parts stand hs named
    simp only [List.mem_cons, List.not_mem_nil, or_false] at kind
    rcases kind with kind | kind
    · exact isVariable.kind_ne_identifier kind
    · rcases isVariable with h | ⟨h, -⟩ <;> simp [kind] at h
  · rw [← here] at inferred
    exact isVariable.kind_ne_identifier (Node.mem_inferredParameters inferred).1

end Tree.HasLeafNames

namespace Environment

variable {e : Environment} {c : Context} {b : BindingId} {n : Node}

/-- A node declares nothing under its own key if it is the place of no site. -/
theorem Files.declaredAt_eq_none (h : e.Files (sitesOf c)) (regular : c.document.tree.IsRegular)
    (hn : n ∈ c.document.root.preorder) (free : ∀ s ∈ sitesOf c, s.place ≠ n) :
    e.declaredAt n = none := by
  cases declared : e.declaredAt n with
  | none => rfl
  | some b =>
    have member := List.mem_map_of_mem (f := Prod.fst) (mem_of_declaredAt declared)
    rw [h.keys] at member
    obtain ⟨s, hs, same⟩ := List.mem_map.1 member
    have stand := Node.standsIn_of_inside_self regular.parts hs
    exact absurd (List.inj_on_of_nodup_map regular.distinct stand.place_mem hn same) (free s hs)

/-- The node of the binding and the name of that node lead back to the binding. -/
structure LeadsBack (e : Environment) (b : BindingId) (n : Node) : Prop where
  node : e.store.node b = some n
  here : e.bindingOf n = some b
  name : ∀ name, n.nameNode = some name → e.bindingOf name = some b

theorem bindingOf_of_declaredAt (h : e.declaredAt n = some b) : e.bindingOf n = some b := by
  rw [bindingOf, h]

/-- The node of a site leads to what is filed for the site. -/
theorem Files.bindingOf_node (files : e.Files (sitesOf c)) (regular : c.document.tree.IsRegular)
    {s : Site} (hs : s ∈ sitesOf c) (filed : e.declaredAt s.place = some b) :
    e.bindingOf s.node = some b := by
  have stand := Node.standsIn_of_inside_self regular.parts hs
  rcases stand.filed with ⟨here, -⟩ | ⟨isVariable, named⟩ | ⟨here, -⟩
  · rw [here] at filed
    exact bindingOf_of_declaredAt filed
  · have free := files.declaredAt_eq_none regular stand.member fun s' hs' =>
      Tree.HasLeafNames.place_ne_variable regular isVariable
        (Node.standsIn_of_inside_self regular.parts hs')
    rw [bindingOf, free, named]
    exact filed
  · rw [here] at filed
    exact bindingOf_of_declaredAt filed

/-- The first pass files every binding it makes, under a key of its own, and the declaration of a
binding and its name lead back to it. -/
theorem build_leadsBack (h : build c = .ok e) (shape : c.document.tree.HasLeafNames) :
    (∀ d, declared c = .ok d → ∀ b, d.store.Has b → b ∈ e.bindings) ∧
      (e.declarations.map Prod.fst).Nodup ∧ e.bindings.Nodup ∧
      ∀ b ∈ e.bindings, ∃ n ∈ c.document.root.preorder, e.LeadsBack b n := by
  have regular := shape.toIsRegular
  have nodup : ((sitesOf c).map (·.place.key)).Nodup := Site.nodup_keys regular _
  obtain ⟨files, stored⟩ := build_files h nodup
  refine ⟨fun d declares b has => (stored d declares b).1 has, files.keys ▸ nodup,
    (build_ready h).sound.distinct, fun b hb => ?_⟩
  obtain ⟨s, hs, entry, declares⟩ := files.exists_site hb
  have stand := Node.standsIn_of_inside_self regular.parts hs
  have others : ∀ s ∈ sitesOf c, s.StandsIn c.document.root :=
    fun s hs => Node.standsIn_of_inside_self regular.parts hs
  have filed : e.declaredAt s.place = some b := (files.declaredAt_eq_some_iff nodup).2 entry
  have node : e.store.node b = some s.node := by
    rw [← declares.node]
    cases b <;> rfl
  refine ⟨s.node, stand.member, node, files.bindingOf_node regular hs filed, fun name named => ?_⟩
  · rcases stand.filed with ⟨here, itself⟩ | ⟨isVariable, named'⟩ | ⟨here, l, hl, -, inferred⟩
    · have below := itself.name_mem named
      have member := Node.mem_preorder_of_mem_children stand.member below
      have free := files.declaredAt_eq_none regular member fun s' hs' =>
        shape.place_ne_name stand.member itself named (others s' hs')
      have leaf := shape.leaves name member (shape.kind_of_name stand.member itself named)
      rw [here] at filed
      rw [bindingOf, free, Node.nameNode_of_leaf leaf]
      simp [Node.parent_of_mem_children below, named, Node.isSame, filed]
    · rw [named'] at named
      cases named
      exact bindingOf_of_declaredAt filed
    · have kind := (Node.mem_inferredParameters inferred).1
      rw [Node.nameNode_of_leaf (shape.leaves _ stand.member (by simp [kind]))] at named
      cases named

/-- A generic class with a varargs method. -/
def varargsFile : Context :=
  .ofFile "class A<T> \x7b void m(int... a) \x7b \x7d \x7d" <|
    .named .program none 0 35 [
      .named .classDeclaration none 0 35 [
        .token "class" 0,
        .named .identifier (some .name) 6 7 [],
        .named .typeParameters (some (.other "type_parameters")) 7 10 [
          .token "<" 7,
          .named .typeParameter none 8 9 [.named .typeIdentifier none 8 9 []],
          .token ">" 9],
        .named .classBody (some .body) 11 35 [
          .token "\x7b" 11,
          .named .methodDeclaration none 13 33 [
            .named .voidType (some .type) 13 17 [],
            .named .identifier (some .name) 18 19 [],
            .named .formalParameters (some .parameters) 19 29 [
              .token "(" 19,
              .named .spreadParameter none 20 28 [
                .named .integralType none 20 23 [.token "int" 20],
                .token "..." 23,
                .named .variableDeclarator none 27 28 [
                  .named .identifier (some .name) 27 28 []]],
              .token ")" 28],
            .named .block (some .body) 30 33 [.token "\x7b" 30, .token "\x7d" 32]],
          .token "\x7d" 34]]]

set_option maxRecDepth 100000 in
theorem varargsFile_computed :
    varargsFile.document.tree.HasLeafNames ∧
      (match build varargsFile with
      | .ok e => some e.bindings
      | .error _ => none) = some [.type ⟨0⟩, .type ⟨1⟩, .method ⟨0⟩, .variable ⟨0⟩] := by
  decide +kernel

theorem build_leadsBack_varargsFile :
    ∃ e, build varargsFile = .ok e ∧ varargsFile.document.tree.HasLeafNames ∧
      (∀ d, declared varargsFile = .ok d → ∀ b, d.store.Has b → b ∈ e.bindings) ∧
      (e.declarations.map Prod.fst).Nodup ∧ e.bindings.Nodup ∧
      ∀ b ∈ [BindingId.type ⟨0⟩, .type ⟨1⟩, .method ⟨0⟩, .variable ⟨0⟩],
        ∃ n ∈ varargsFile.document.root.preorder, e.LeadsBack b n := by
  obtain ⟨shape, computed⟩ := varargsFile_computed
  split at computed
  · next e built =>
    rw [Option.some.injEq] at computed
    obtain ⟨filed, keys, once, back⟩ := build_leadsBack built shape
    rw [computed] at back
    exact ⟨e, built, shape, filed, keys, once, back⟩
  · cases computed

end Environment

end JavaScope
