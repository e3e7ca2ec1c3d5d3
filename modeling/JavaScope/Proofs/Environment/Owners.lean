import JavaScope.Proofs.Environment.Closed
import JavaScope.Proofs.Environment.Filing
import JavaScope.Proofs.Environment.Places

/-!
# Owners by declaration and owners by climbing

The first pass hands the enclosing type and method down, and the queries on nodes climb to them. Both
find the same ones, and every type lists the methods, fields and member types that belong to it, in
the order of the text.
-/

namespace JavaScope

namespace Node

/-! ## Climbing -/

/-- The node declares a type with a body. -/
def opensType (n : Node) : Bool :=
  n.kind.isTypeDeclaration || n.isAnonymousBody

/-- The nearest type above a node. -/
def typeAbove (n : Node) : Option Node :=
  n.above.find? opensType

/-- The method that a node is or stands in, within the nearest type. -/
def methodAround (n : Node) : Option Node :=
  (n.climb.find? fun m => m.kind.isMethodDeclaration || m.opensType).filter
    (·.kind.isMethodDeclaration)

variable {n c : Node}

theorem above_of_mem_children (h : c ∈ n.children) : c.above = n.climb := by
  rw [above, (mem_children_iff.1 h).2]
  rfl

theorem typeAbove_of_mem_children (h : c ∈ n.children) :
    c.typeAbove = n.climb.find? opensType := by
  rw [typeAbove, above_of_mem_children h]

theorem find?_opensType_of_opensType (h : n.opensType = true) :
    n.climb.find? opensType = some n := by
  rw [climb, List.find?_cons_of_pos h]

theorem find?_opensType_of_not (h : n.opensType = false) :
    n.climb.find? opensType = n.typeAbove := by
  rw [climb, List.find?_cons_of_neg (by simp [h])]
  rfl

theorem methodAround_of_isMethod (h : n.kind.isMethodDeclaration = true) :
    n.methodAround = some n := by
  rw [methodAround, climb, List.find?_cons_of_pos (by simp [h])]
  simp [h]

theorem isMethodDeclaration_of_opensType (h : n.opensType = true) :
    n.kind.isMethodDeclaration = false := by
  rw [opensType, isAnonymousBody] at h
  cases kind : n.kind <;> simp_all [Kind.isTypeDeclaration, Kind.isMethodDeclaration]

theorem methodAround_of_opensType (h : n.opensType = true) : n.methodAround = none := by
  rw [methodAround, climb, List.find?_cons_of_pos (by simp [h])]
  simp [isMethodDeclaration_of_opensType h]

theorem methodAround_of_mem_children (h : c ∈ n.children) (notMethod : c.kind.isMethodDeclaration = false)
    (notType : c.opensType = false) : c.methodAround = n.methodAround := by
  rw [methodAround, climb, List.find?_cons_of_neg (by simp [notMethod, notType]),
    above_of_mem_children h]
  rfl

/-- Only a class body may be the body of an anonymous class. -/
theorem opensType_of_kind {k : Kind} (kind : n.kind = k) (notType : k.isTypeDeclaration = false)
    (notBody : k ≠ .classBody) : n.opensType = false := by
  simp [opensType, isAnonymousBody, kind, notType, notBody]

theorem opensType_of_parent (h : c ∈ n.children) (notType : c.kind.isTypeDeclaration = false)
    (notOwner : n.kind.isAnonymousOwner = false) : c.opensType = false := by
  simp [opensType, isAnonymousBody, notType, parent_of_mem_children h, notOwner]

theorem opensType_of_isMethod (isMethod : n.kind.isMethodDeclaration = true) :
    n.opensType = false := by
  by_contra opens
  rw [isMethodDeclaration_of_opensType (by simpa using opens)] at isMethod
  cases isMethod

theorem IsTransparent.opensType_eq_false (h : n.IsTransparent) : n.opensType = false := by
  simp [opensType, h.notType, h.notAnonymous]

/-- A list of parameters is no type and no method, and neither is a parameter. -/
theorem list_is_header {list : Node} (shape : n.HasParts)
    (hlist : list ∈ n.childrenByField .parameters) :
    (list.kind.isMethodDeclaration = false ∧ list.opensType = false) ∧
      ∀ each ∈ list.namedChildren,
        each.kind.isMethodDeclaration = false ∧ each.opensType = false := by
  obtain ⟨isList, parameters⟩ := shape.parameters list hlist
  have kinds : list.kind.isMethodDeclaration = false ∧ list.opensType = false ∧
      list.kind.isAnonymousOwner = false := by
    simp only [List.mem_cons, List.not_mem_nil, or_false] at isList
    rcases isList with kind | kind | kind <;>
      simp [opensType, isAnonymousBody, kind, Kind.isMethodDeclaration,
        Kind.isTypeDeclaration, Kind.isAnonymousOwner]
  refine ⟨⟨kinds.1, kinds.2.1⟩, fun each heach => ?_⟩
  obtain ⟨notType, notMethod⟩ := parameters each heach
  exact ⟨notMethod, opensType_of_parent (List.mem_filter.1 heach).1 notType kinds.2.2⟩

/-! ## Trees with members in bodies -/

/-- Fields, constants and static initializers stand in the body of a type, and such a body belongs to
a type declaration, an instance creation or an enum constant. -/
structure HasMembersInBodies (n : Node) : Prop where
  member : n.kind.isFieldDeclaration = true ∨ n.kind = .staticInitializer →
    n.parent.any (·.kind.isTypeBody) = true
  body : n.kind.isTypeBody = true → n.parent.any fun up =>
    up.kind.isTypeDeclaration && n.field == some .body ||
      n.kind == .classBody && up.kind.isAnonymousOwner ||
      n.kind == .enumBodyDeclarations && up.kind == .enumBody

instance (n : Node) : Decidable n.HasMembersInBodies :=
  decidable_of_iff
    ((n.kind.isFieldDeclaration = true ∨ n.kind = .staticInitializer →
        n.parent.any (·.kind.isTypeBody) = true) ∧
      (n.kind.isTypeBody = true → n.parent.any fun up =>
        up.kind.isTypeDeclaration && n.field == some .body ||
          n.kind == .classBody && up.kind.isAnonymousOwner ||
          n.kind == .enumBodyDeclarations && up.kind == .enumBody))
    ⟨fun ⟨member, body⟩ => ⟨member, body⟩, fun h => ⟨h.member, h.body⟩⟩

end Node

/-- A regular tree whose members stand in the bodies of types. -/
structure Tree.HasMembersInBodies (t : Tree) : Prop extends t.IsRegular where
  root : t.root.kind = .program ∨ t.root.kind.isError = true
  members : ∀ n ∈ t.root.preorder, n.HasMembersInBodies

instance (t : Tree) : Decidable t.HasMembersInBodies :=
  decidable_of_iff (t.IsRegular ∧ (t.root.kind = .program ∨ t.root.kind.isError = true) ∧
      ∀ n ∈ t.root.preorder, n.HasMembersInBodies)
    ⟨fun ⟨regular, root, members⟩ => ⟨regular, root, members⟩,
      fun h => ⟨h.toIsRegular, h.root, h.members⟩⟩

namespace Tree.HasMembersInBodies

open Node

variable {t : Tree} (shape : t.HasMembersInBodies) {n m c : Node} {s : Site} {e : Enclosure}

include shape

/-- Around the body of a type there is no method before that type. -/
theorem methodAround_of_isTypeBody (hn : n ∈ t.root.preorder) (isBody : n.kind.isTypeBody = true) :
    n.methodAround = none := by
  have notMethod : ∀ {k : Kind}, k.isTypeBody = true → k.isMethodDeclaration = false := by
    intro k
    cases k <;> simp [Kind.isTypeBody, Kind.isMethodDeclaration]
  have byType : ∀ {n up : Node}, n ∈ up.children → n.kind.isTypeBody = true →
      up.kind.isTypeDeclaration = true → n.methodAround = none := by
    intro n up below isBody isType
    by_cases opens : n.opensType = true
    · exact methodAround_of_opensType opens
    · rw [methodAround_of_mem_children below (notMethod isBody) (by simpa using opens)]
      exact methodAround_of_opensType (by simp [opensType, isType])
  obtain ⟨up, above, place⟩ := (Option.any_eq_true _ _).1 ((shape.members n hn).body isBody)
  obtain ⟨hup, below⟩ := Tree.mem_of_parent hn above
  simp only [Bool.or_eq_true, Bool.and_eq_true, beq_iff_eq] at place
  rcases place with (⟨isType, -⟩ | ⟨isClassBody, isOwner⟩) | ⟨isPart, isEnum⟩
  · exact byType below isBody isType
  · exact methodAround_of_opensType (by simp [opensType, isAnonymousBody, isClassBody, above, isOwner])
  · have upIsBody : up.kind.isTypeBody = true := by simp [isEnum, Kind.isTypeBody]
    rw [methodAround_of_mem_children below (notMethod isBody)
      (opensType_of_kind isPart rfl (by simp))]
    obtain ⟨upper, above', place⟩ := (Option.any_eq_true _ _).1 ((shape.members up hup).body upIsBody)
    obtain ⟨-, below'⟩ := Tree.mem_of_parent hup above'
    simp only [isEnum, Bool.or_eq_true, Bool.and_eq_true, beq_iff_eq] at place
    rcases place with (⟨isType, -⟩ | ⟨isClassBody, -⟩) | ⟨isPart, -⟩
    · exact byType below' upIsBody isType
    · cases isClassBody
    · cases isPart

/-- Around a member of a type there is no method before that type. -/
theorem methodAround_of_parent_isTypeBody (hn : n ∈ t.root.preorder)
    (inBody : n.parent.any (·.kind.isTypeBody) = true)
    (notMethod : n.kind.isMethodDeclaration = false) (notType : n.opensType = false) :
    n.methodAround = none := by
  obtain ⟨up, above, isBody⟩ := (Option.any_eq_true _ _).1 inBody
  obtain ⟨hup, below⟩ := Tree.mem_of_parent hn above
  rw [methodAround_of_mem_children below notMethod notType]
  exact shape.methodAround_of_isTypeBody hup isBody

end Tree.HasMembersInBodies

/-! ## Sites belong where climbing leads -/

/-- The pass finds a member in the type, and a variable in the method, that climbing finds. -/
structure Site.IsPlaced (s : Site) : Prop where
  owner : s.role.isMember = true → s.owner = s.node.typeAbove
  method : s.role = .localVariable → s.method = s.node.methodAround

/-- What the pass takes to enclose the nodes directly below a node is found by climbing from it. -/
structure Enclosure.IsAround (e : Enclosure) (n : Node) : Prop where
  owner : e.owner = n.climb.find? Node.opensType
  method : e.method = n.methodAround

namespace Enclosure.IsAround

variable {e : Enclosure} {n c : Node}

/-- Below a node that is neither a type nor a method nothing changes. -/
theorem of_child (h : e.IsAround n) (hc : c ∈ n.children)
    (notMethod : c.kind.isMethodDeclaration = false) (notType : c.opensType = false)
    (inBody : Bool) : (⟨e.owner, e.method, inBody⟩ : Enclosure).IsAround c where
  owner := by
    rw [Node.find?_opensType_of_not notType, Node.typeAbove_of_mem_children hc]
    exact h.owner
  method := by
    rw [Node.methodAround_of_mem_children hc notMethod notType]
    exact h.method

theorem of_opensType (opens : n.opensType = true) (inBody : Bool) :
    (⟨some n, none, inBody⟩ : Enclosure).IsAround n where
  owner := (Node.find?_opensType_of_opensType opens).symm
  method := (Node.methodAround_of_opensType opens).symm

theorem of_isMethod (h : e.IsAround n) (hc : c ∈ n.children)
    (isMethod : c.kind.isMethodDeclaration = true) (notType : c.opensType = false)
    (inBody : Bool) : (⟨e.owner, some c, inBody⟩ : Enclosure).IsAround c where
  owner := by
    rw [Node.find?_opensType_of_not notType, Node.typeAbove_of_mem_children hc]
    exact h.owner
  method := (Node.methodAround_of_isMethod isMethod).symm

end Enclosure.IsAround

namespace Site.IsPlaced

variable {n c : Node} {s : Site} {e : Enclosure}

theorem of_mem_typeParameters {owner method : Option Node}
    (h : s ∈ Plan.typeParameters n owner method) : s.IsPlaced := by
  obtain ⟨-, -, -, each, -, -, rfl⟩ := Node.mem_typeParameters_cases h
  exact ⟨nofun, nofun⟩

theorem of_mem_field {owner : Option Node} (isOwner : owner = n.typeAbove)
    (h : s ∈ Plan.named .field n owner none) : s.IsPlaced := by
  obtain ⟨place, -, rfl⟩ := List.mem_map.1 h
  exact ⟨fun _ => isOwner, nofun⟩

theorem of_mem_localVariable {method : Option Node} (isMethod : method = n.methodAround)
    (h : s ∈ Plan.named .localVariable n none method) : s.IsPlaced := by
  obtain ⟨place, -, rfl⟩ := List.mem_map.1 h
  exact ⟨nofun, fun _ => isMethod⟩

theorem of_mem_recordComponents (shape : n.HasParts) (isType : n.opensType = true)
    (h : s ∈ Plan.recordComponents n) : s.IsPlaced := by
  obtain ⟨list, below, field, each, inner, -, hs⟩ := Node.mem_recordComponents_cases h
  obtain ⟨⟨-, notType⟩, -⟩ := Node.list_is_header shape (List.mem_filter.2 ⟨below, by simp [field]⟩)
  refine of_mem_field ?_ hs
  rw [Node.typeAbove_of_mem_children inner, Node.find?_opensType_of_not notType,
    Node.typeAbove_of_mem_children below, Node.find?_opensType_of_opensType isType]

theorem of_mem_inMethod {method : Option Node} (shape : n.HasParts)
    (isMethod : method = n.methodAround) (h : s ∈ Plan.inMethod n method) : s.IsPlaced := by
  rcases Node.mem_inMethod_cases h with ⟨-, hs⟩ | ⟨-, name, hname, rfl⟩
  · exact of_mem_localVariable isMethod hs
  · obtain ⟨kind, list, below, field, inner⟩ := Node.mem_inferredParameters hname
    obtain ⟨⟨notMethod, notType⟩, -⟩ :=
      Node.list_is_header shape (List.mem_filter.2 ⟨below, by simp [field]⟩)
    refine ⟨nofun, fun _ => ?_⟩
    have around := Node.methodAround_of_mem_children below notMethod notType
    rcases inner with rfl | inner
    · exact isMethod.trans around.symm
    · have isName : name.kind.isMethodDeclaration = false ∧ name.opensType = false :=
        ⟨by simp [kind, Kind.isMethodDeclaration], Node.opensType_of_kind kind rfl (by simp)⟩
      show method = name.methodAround
      rw [Node.methodAround_of_mem_children inner isName.1 isName.2, around]
      exact isMethod

end Site.IsPlaced

namespace Tree.HasMembersInBodies

open Node

variable {t : Tree} (shape : t.HasMembersInBodies) {n m up : Node} {s : Site} {e e' : Enclosure}

include shape

/-- What the pass takes to enclose the inside of a node that it opens is found by climbing. -/
theorem isAround_of_opens (hup : up ∈ t.root.preorder) (hn : n ∈ up.children)
    (around : e.IsAround up) (opens : n.Opens e m e') : e'.IsAround m := by
  have member := mem_preorder_of_mem_children hup hn
  have parts := shape.parts n member
  have inside : n.IsTransparent → ∀ inBody, (⟨e.owner, e.method, inBody⟩ : Enclosure).IsAround n :=
    fun transparent => around.of_child hn transparent.notMethod transparent.opensType_eq_false
  have reset : n.IsTransparent → n.methodAround = none →
      (⟨e.owner, none, true⟩ : Enclosure).IsAround n :=
    fun transparent none => ⟨(inside transparent true).owner, none.symm⟩
  cases opens with
  | typeBody isType hc =>
    have below := (List.mem_filter.1 hc).1
    have kinds : m.kind.isMethodDeclaration = false ∧ m.kind.isTypeDeclaration = false := by
      have isBody := parts.typeBody isType m hc
      revert isBody
      cases m.kind <;> simp [Kind.isTypeBody, Kind.isMethodDeclaration, Kind.isTypeDeclaration]
    have notOwner : n.kind.isAnonymousOwner = false := by
      revert isType
      cases n.kind <;> simp [Kind.isTypeDeclaration, Kind.isAnonymousOwner]
    have opened := Enclosure.IsAround.of_opensType (n := n) (by simp [opensType, isType]) false
    exact opened.of_child below kinds.1 (opensType_of_parent below kinds.2 notOwner) false
  | anonymousBody isAnonymous => exact .of_opensType (by simp [opensType, isAnonymous]) false
  | parameter isMethod hlist heach =>
    obtain ⟨⟨notMethod, notType⟩, parameters⟩ := list_is_header parts hlist
    obtain ⟨notMethod', notType'⟩ := parameters m heach
    have inMethod := around.of_isMethod hn isMethod (opensType_of_isMethod isMethod) true
    have inList := inMethod.of_child (List.mem_filter.1 hlist).1 notMethod notType true
    exact inList.of_child (List.mem_filter.1 heach).1 notMethod' notType' true
  | methodBody isMethod hc =>
    have kinds : m.kind.isMethodDeclaration = false ∧ m.opensType = false := by
      have isBlock := parts.methodBody isMethod m hc
      rw [opensType, isAnonymousBody]
      revert isBlock
      cases m.kind <;> simp [Kind.isBlock, Kind.isMethodDeclaration, Kind.isTypeDeclaration]
    have inMethod := around.of_isMethod hn isMethod (opensType_of_isMethod isMethod) true
    exact inMethod.of_child (List.mem_filter.1 hc).1 kinds.1 kinds.2 true
  | declarator transparent isField hc =>
    have none := shape.methodAround_of_parent_isTypeBody member
      ((shape.members n member).member (.inl isField)) transparent.notMethod
      transparent.opensType_eq_false
    have kind := parts.declarators isField m hc
    exact (reset transparent none).of_child (List.mem_filter.1 hc).1
      (by simp [kind, Kind.isMethodDeclaration]) (opensType_of_kind kind rfl (by simp)) true
  | constant transparent => exact inside transparent true
  | initializer transparent isInitializer =>
    refine reset transparent (shape.methodAround_of_parent_isTypeBody member ?_
      transparent.notMethod transparent.opensType_eq_false)
    rcases isInitializer with isStatic | isBlock
    · exact (shape.members n member).member (.inr isStatic)
    · exact (Bool.and_eq_true_iff.1 isBlock).2
  | code transparent => exact inside transparent e.inBody

/-- What the pass takes to enclose what a node brings is found by climbing. -/
theorem isPlaced_of_brings (hup : up ∈ t.root.preorder) (hn : n ∈ up.children)
    (around : e.IsAround up) (brought : n.Brings e s) : s.IsPlaced := by
  have parts := shape.parts n (mem_preorder_of_mem_children hup hn)
  have owner : e.owner = n.typeAbove := by
    rw [typeAbove_of_mem_children hn]
    exact around.owner
  cases brought with
  | type | anonymousClass | method => exact ⟨fun _ => owner, nofun⟩
  | typeParameter h => exact .of_mem_typeParameters h
  | recordComponent isRecord h =>
    exact .of_mem_recordComponents parts (by simp [opensType, isRecord, Kind.isTypeDeclaration]) h
  | parameter isMethod hlist heach _ h =>
    obtain ⟨⟨notMethod, notType⟩, parameters⟩ := list_is_header parts hlist
    obtain ⟨notMethod', notType'⟩ := parameters _ heach
    refine .of_mem_localVariable ?_ h
    rw [methodAround_of_mem_children (List.mem_filter.1 heach).1 notMethod' notType',
      methodAround_of_mem_children (List.mem_filter.1 hlist).1 notMethod notType,
      methodAround_of_isMethod isMethod]
  | field transparent _ hc h =>
    refine .of_mem_field ?_ h
    rw [typeAbove_of_mem_children (List.mem_filter.1 hc).1,
      find?_opensType_of_not transparent.opensType_eq_false]
    exact owner
  | constant _ h => exact .of_mem_field owner h
  | code transparent h =>
    have inside := around.of_child hn transparent.notMethod transparent.opensType_eq_false true
    exact .of_mem_inMethod parts inside.method h

/-- What the pass takes to enclose a site is what climbing from the site finds. -/
theorem isPlaced_of_mem_sites (hup : up ∈ t.root.preorder) (hn : n ∈ up.children)
    (around : e.IsAround up) (h : s ∈ n.sites e) : s.IsPlaced := by
  refine sites_induction
    (P := fun n e s => ∀ up ∈ t.root.preorder, n ∈ up.children → e.IsAround up → s.IsPlaced)
    ?_ ?_ h up hup hn around
  · intro n e s brought up hup hn around
    exact shape.isPlaced_of_brings hup hn around brought
  · intro n e m e' c s opens hc ih up hup hn around
    have member := mem_preorder_trans (mem_preorder_of_mem_children hup hn) opens.mem_preorder
    exact ih m member hc (shape.isAround_of_opens hup hn around opens)

omit shape in
/-- What the pass takes to enclose a site of a file is what climbing from the site finds. -/
theorem isPlaced_sitesOf {c : Context} (shape : c.document.tree.HasMembersInBodies) :
    ∀ s ∈ Environment.sitesOf c, s.IsPlaced := by
  have top : c.document.root.opensType = false ∧
      c.document.root.kind.isMethodDeclaration = false := by
    rcases shape.root with kind | isError
    · exact ⟨opensType_of_kind kind rfl (by simp), congrArg Kind.isMethodDeclaration kind⟩
    · have isError : c.document.root.kind.isError = true := isError
      simp only [opensType, isAnonymousBody]
      revert isError
      cases c.document.root.kind <;> simp [Kind.isError, Kind.isTypeDeclaration,
        Kind.isMethodDeclaration]
  have around : (⟨none, none, false⟩ : Enclosure).IsAround c.document.root := by
    refine ⟨?_, ?_⟩
    · rw [find?_opensType_of_not top.1]
      rfl
    · rw [methodAround, climb, List.find?_cons_of_neg (by simp [top])]
      rfl
  intro s hs
  rw [Environment.sitesOf, sitesInside_eq] at hs
  obtain ⟨child, hc, hs⟩ := List.mem_flatMap.1 hs
  exact shape.isPlaced_of_mem_sites (mem_preorder_self _) (List.mem_filter.1 hc).1 around hs

end Tree.HasMembersInBodies

namespace Environment

variable {e : Environment} {c : Context} {t : Tree}

theorem enclosingMethod_eq (e : Environment) (n : Node) :
    e.enclosingMethod n = n.methodAround.bind e.methodAt := by
  have same : (fun m : Node => m.kind.isMethodDeclaration || m.kind.isTypeDeclaration ||
      m.isAnonymousBody) = fun m => m.kind.isMethodDeclaration || m.opensType := by
    funext m
    rw [Node.opensType, Bool.or_assoc]
  rw [enclosingMethod, Node.methodAround, same]
  cases n.climb.find? fun m => m.kind.isMethodDeclaration || m.opensType with
  | none => rfl
  | some m =>
    cases isMethod : m.kind.isMethodDeclaration <;> simp [isMethod, Option.filter]

/-- Below a type, climbing to a type or to the file ends at a type. -/
theorem enclosingType_of_typeAround (regular : t.IsRegular) {n m : Node}
    (hn : n ∈ t.root.preorder) (found : n.climb.find? Node.opensType = some m) :
    e.enclosingType n = e.typeAt m := by
  have same : (fun m : Node => m.kind.isTypeDeclaration || m.isAnonymousBody || m.kind == .program) =
      fun m => m.opensType || m.kind == .program := rfl
  obtain ⟨tree, up⟩ := n
  induction up generalizing tree with
  | nil =>
    obtain ⟨rfl⟩ := List.mem_singleton.1 (List.mem_of_find?_eq_some found)
    have opens := List.find?_some found
    have noFile : (Node.kind ⟨tree, []⟩ == .program) = false := by
      simp only [Node.opensType, Node.isAnonymousBody] at opens
      cases kind : Node.kind ⟨tree, []⟩ <;> simp_all [Kind.isTypeDeclaration]
    rw [enclosingType, same, Node.climb, List.find?_cons_of_pos (by simp [opens])]
    simp [noFile]
  | cons above rest ih =>
    by_cases opens : Node.opensType ⟨tree, above :: rest⟩ = true
    · rw [Node.find?_opensType_of_opensType opens] at found
      cases found
      have noFile : (Node.kind ⟨tree, above :: rest⟩ == .program) = false := by
        simp only [Node.opensType, Node.isAnonymousBody] at opens
        cases kind : Node.kind ⟨tree, above :: rest⟩ <;> simp_all [Kind.isTypeDeclaration]
      rw [enclosingType, same, Node.climb, List.find?_cons_of_pos (by simp [opens])]
      simp [noFile]
    · have inFile : Node.kind ⟨tree, above :: rest⟩ ≠ .program := fun isFile => by
        have top := (regular.parts _ hn).program isFile
        cases top
      have skip : e.enclosingType ⟨tree, above :: rest⟩ = e.enclosingType ⟨above, rest⟩ := by
        rw [enclosingType, enclosingType, same, Node.climb,
          List.find?_cons_of_neg (by simp [opens, inFile])]
        rfl
      rw [Node.find?_opensType_of_not (by simpa using opens)] at found
      rw [skip]
      exact ih above (Tree.mem_of_parent hn rfl).1 found

end Environment

/-- The binding is a method, a field, or a type other than a type parameter. -/
def Store.isMember (s : Store) : BindingId → Bool
  | .type t => !(s.type t).isTypeVariable
  | .variable v => (s.variable v).isField
  | .method _ => true

theorem Store.isMember_eq (s : Store) (b : BindingId) : s.isMember b = (s.profile b).role.isMember := by
  cases b with
  | type t =>
    simp only [isMember, profile, TypeBinding.profile]
    cases (s.type t).isTypeVariable <;> cases (s.type t).isAnonymous <;> rfl
  | «variable» v =>
    simp only [isMember, profile, VariableBinding.profile]
    cases (s.variable v).isField <;> rfl
  | method m => rfl

theorem Store.node_eq (s : Store) (b : BindingId) : s.node b = (s.profile b).node := by
  cases b <;> rfl

theorem Store.declaringClass_eq (s : Store) (b : BindingId) :
    s.declaringClass b = (s.profile b).owner := by
  cases b <;> rfl

namespace Store

variable (s : Store) (t : TypeId) (b : BindingId)

theorem belongs_variable_iff : s.belongs t .variable b = true ↔
    ∃ v, b = .variable v ∧ (s.variable v).isField = true ∧
      (s.variable v).declaringClass = some t := by
  cases b with
  | «variable» v =>
    cases isField : (s.variable v).isField <;>
      simp [belongs, BindingId.kind, profile, VariableBinding.profile, Role.isListed, isField]
  | type u => simp [belongs, BindingId.kind]
  | method m => simp [belongs, BindingId.kind]

theorem belongs_method_iff : s.belongs t .method b = true ↔
    ∃ m, b = .method m ∧ (s.method m).declaringClass = some t := by
  cases b <;> simp [belongs, BindingId.kind, profile, MethodBinding.profile, Role.isListed]

theorem belongs_type_iff : s.belongs t .type b = true ↔
    ∃ u, b = .type u ∧ (s.type u).isTypeVariable = false ∧ (s.type u).isAnonymous = false ∧
      (s.type u).isLocal = false ∧ (s.type u).declaringClass = some t := by
  cases b with
  | type u =>
    cases isTypeVariable : (s.type u).isTypeVariable <;>
      cases isAnonymous : (s.type u).isAnonymous <;>
        simp [belongs, BindingId.kind, profile, TypeBinding.profile, Role.isListed, isTypeVariable,
          isAnonymous]
  | «variable» v => simp [belongs, BindingId.kind]
  | method m => simp [belongs, BindingId.kind]

end Store

/-- The list has the declared bindings with a property, each once, and in the order of the text. -/
structure Environment.ListsInOrder (e : Environment) (p : BindingId → Prop)
    (listed : List BindingId) : Prop where
  mem : ∀ b, b ∈ listed ↔ b ∈ e.bindings ∧ p b
  once : listed.Nodup
  order : (listed.map e.store.node).Sublist (e.document.root.preorder.map some)

namespace Environment

variable {e : Environment} {c : Context}

theorem map_filter_of_forall₂ {α β γ : Type} {p : α → Bool} {q : β → Bool} {f : α → γ} {g : β → γ}
    {xs : List α} {ys : List β} (h : List.Forall₂ (fun x y => p x = q y ∧ f x = g y) xs ys) :
    (xs.filter p).map f = (ys.filter q).map g := by
  induction h with
  | nil => rfl
  | cons same _ ih =>
    rw [List.filter_cons, List.filter_cons, same.1]
    split
    · rw [List.map_cons, List.map_cons, same.2, ih]
    · exact ih

/-- The declared bindings that types may list come in the order of the text. -/
theorem Files.listed_sublist (h : e.Files (sitesOf c)) (regular : c.document.tree.IsRegular)
    (t : TypeId) (k : BindingKind) :
    (((e.store.type t).listed k).map e.store.node).Sublist (c.document.root.preorder.map some) := by
  have members : (e.bindings.filter fun b => (e.store.profile b).role.isMember).map e.store.node =
      (Site.members (sitesOf c)).map some := by
    rw [Site.members, List.map_map]
    refine (map_filter_of_forall₂ ?_).symm
    rw [bindings, List.forall₂_map_right_iff]
    refine h.entries.imp fun s entry declares => ⟨?_, ?_⟩
    · rw [declares.2.role]
    · rw [Store.node_eq, declares.2.node]
      rfl
  have sub : (e.bindings.filter (e.store.belongs t k)).Sublist
      (e.bindings.filter fun b => (e.store.profile b).role.isMember) := by
    refine List.monotone_filter_right _ fun b belongs => ?_
    have listed := (Bool.and_eq_true_iff.1 (Bool.and_eq_true_iff.1 belongs).1).2
    revert listed
    cases (e.store.profile b).role <;> simp [Role.isListed, Role.isMember]
  rw [h.listed]
  refine (sub.map e.store.node).trans ?_
  rw [members]
  refine List.Sublist.map some ?_
  rw [Node.preorder_eq]
  exact (Node.members_sitesInside_sublist fun child hc around =>
    Node.members_sites_sublist (Node.shape_of_mem_children regular.parts hc)).cons _

theorem lists_of_belongs {listed : List BindingId} {t : TypeId} {k : BindingKind}
    {p : BindingId → Prop} (h : e.Files (sitesOf c)) (sound : e.Sound c)
    (regular : c.document.tree.IsRegular) (isListed : listed = (e.store.type t).listed k)
    (same : ∀ b, e.store.belongs t k b = true ↔ p b) : e.ListsInOrder p listed where
  mem b := by
    rw [isListed, h.listed, List.mem_filter, same]
  once := by
    rw [isListed, h.listed]
    exact sound.distinct.filter _
  order := by
    rw [isListed, document, sound.context]
    exact h.listed_sublist regular t k

/-- Where a node has a type above it, that is the type in which its parent stands. -/
theorem bind_enclosingType {t : Tree} (regular : t.IsRegular) {n : Node}
    (hn : n ∈ t.root.preorder) :
    (if n.above.any Node.opensType then n.parent.bind e.enclosingType else none) =
      n.typeAbove.bind e.typeAt := by
  cases above : n.typeAbove with
  | none =>
    have none := List.find?_eq_none.1 above
    rw [if_neg]
    · rfl
    · simpa using none
  | some m =>
    rw [if_pos (List.any_eq_true.2 ⟨m, List.mem_of_find?_eq_some above, List.find?_some above⟩)]
    obtain ⟨tree, up⟩ := n
    cases up with
    | nil => cases above
    | cons top rest =>
      exact enclosingType_of_typeAround regular (Tree.mem_of_parent hn rfl).1 above

/-- The first pass has recorded the owners that climbing from the declarations finds, and a type lists
the fields, methods and member types that belong to it. -/
structure RecordsOwners (c : Context) (e : Environment) : Prop where
  locals : ∀ v, .variable v ∈ e.bindings → (e.store.variable v).isField = false →
    ∃ n ∈ c.document.root.preorder, (e.store.variable v).node = some n ∧
      (e.store.variable v).declaringMethod = e.enclosingMethod n
  members : ∀ b ∈ e.bindings, e.store.isMember b = true →
    ∃ n ∈ c.document.root.preorder, e.store.node b = some n ∧
      e.store.declaringClass b =
        if n.above.any Node.opensType then n.parent.bind e.enclosingType else none
  fields : ∀ t, e.ListsInOrder
    (fun b => ∃ v, b = .variable v ∧ (e.store.variable v).isField = true ∧
      (e.store.variable v).declaringClass = some t)
    ((e.store.type t).declaredFields.map .variable)
  methods : ∀ t, e.ListsInOrder
    (fun b => ∃ m, b = .method m ∧ (e.store.method m).declaringClass = some t)
    ((e.store.type t).declaredMethods.map .method)
  types : ∀ t, e.ListsInOrder
    (fun b => ∃ u, b = .type u ∧ (e.store.type u).isTypeVariable = false ∧
      (e.store.type u).isAnonymous = false ∧ (e.store.type u).isLocal = false ∧
      (e.store.type u).declaringClass = some t)
    ((e.store.type t).declaredTypes.map .type)

/-- Where a local variable of a method is declared, the type around the method is declared, too. -/
theorem exists_declaredAt_typeAbove (h : build c = .ok e) (shape : c.document.tree.HasMembersInBodies)
    {v : VariableId} (filed : .variable v ∈ e.bindings) (isLocal : (e.store.variable v).isField = false)
    {n m k : Node} (node : (e.store.variable v).node = some n) (around : n.methodAround = some m)
    (hm : m ∈ c.document.root.preorder) (above : m.typeAbove = some k) :
    ∃ t, e.declaredAt k = some (.type t) := by
  have regular := shape.toIsRegular
  have nodup : ((sitesOf c).map (·.place.key)).Nodup := Site.nodup_keys regular _
  have files := (build_files h nodup).1
  have placed := shape.isPlaced_sitesOf
  -- the site of the variable names the method, and the site of the method names the type
  obtain ⟨s, hs, -, declares⟩ := files.exists_site filed
  have role : s.role = .localVariable := by
    rw [← declares.role]
    simp [Store.profile, VariableBinding.profile, isLocal]
  have same : s.node = n := Option.some.inj (declares.node.symm.trans node)
  have holds := declares.method role
  rw [(placed s hs).method role, same, around] at holds
  generalize (e.store.profile (.variable v)).method = method at holds
  cases holds with
  | @some _ o entry =>
    obtain ⟨s', hs', entry', declares'⟩ := files.exists_site (List.mem_map_of_mem entry)
    have role' : s'.role = .method := declares'.role.symm
    have stand := Node.standsIn_of_inside_self regular.parts hs'
    have key := (build_ready h).sound.key_unique entry' entry
    have here : s'.node = m := by
      rw [← stand.place_eq_of_method role']
      exact List.inj_on_of_nodup_map regular.distinct stand.place_mem hm key
    have owns := declares'.owner (by rw [role']; rfl)
    rw [(placed s' hs').owner (by rw [role']; rfl), here, above] at owns
    generalize (e.store.profile (.method o)).owner = owner at owns
    cases owns with
    | @some _ t entry => exact ⟨t, (files.declaredAt_eq_some_iff nodup).2 entry⟩

/-- What the first pass hands down is what the queries on nodes climb to. -/
theorem build_recordsOwners (h : build c = .ok e) (shape : c.document.tree.HasMembersInBodies) :
    e.RecordsOwners c := by
  have regular := shape.toIsRegular
  have nodup : ((sitesOf c).map (·.place.key)).Nodup := Site.nodup_keys regular _
  obtain ⟨files, -⟩ := build_files h nodup
  have sound := (build_ready h).sound
  have member : ∀ s ∈ sitesOf c, s.node ∈ c.document.root.preorder := fun s hs =>
    (Node.standsIn_of_inside_self regular.parts hs).member
  have placed := shape.isPlaced_sitesOf
  refine ⟨fun v hv isLocal => ?_, fun b hb isMember => ?_, fun t => ?_, fun t => ?_, fun t => ?_⟩
  · obtain ⟨s, hs, -, declares⟩ := files.exists_site hv
    refine ⟨s.node, member s hs, declares.node, ?_⟩
    have isVariable : s.role = .localVariable := by
      rw [← declares.role]
      simp [Store.profile, VariableBinding.profile, isLocal]
    have found := files.bind_methodAt nodup (declares.method isVariable)
    rw [(placed s hs).method isVariable] at found
    rw [enclosingMethod_eq]
    exact found.symm
  · obtain ⟨s, hs, -, declares⟩ := files.exists_site hb
    refine ⟨s.node, member s hs, (Store.node_eq _ b).trans declares.node, ?_⟩
    have isOwned : s.role.isMember = true := by
      rw [← declares.role, ← Store.isMember_eq]
      exact isMember
    have found := files.bind_typeAt nodup (declares.owner isOwned)
    rw [(placed s hs).owner isOwned] at found
    rw [Store.declaringClass_eq, ← found, bind_enclosingType regular (member s hs)]
  · exact lists_of_belongs files sound regular rfl (Store.belongs_variable_iff e.store t)
  · exact lists_of_belongs files sound regular rfl (Store.belongs_method_iff e.store t)
  · exact lists_of_belongs files sound regular rfl (Store.belongs_type_iff e.store t)

/-- A class with a field, a method with a parameter, and a member class. -/
def memberFile : Context :=
  .ofFile "class A \x7b int f; void g(int p) \x7b \x7d class B \x7b \x7d \x7d" <|
    .named .program none 0 48 [
      .named .classDeclaration none 0 48 [
        .token "class" 0,
        .named .identifier (some .name) 6 7 [],
        .named .classBody (some .body) 8 48 [
          .token "\x7b" 8,
          .named .fieldDeclaration none 10 16 [
            .named .integralType (some .type) 10 13 [.token "int" 10],
            .named .variableDeclarator (some .declarator) 14 15 [
              .named .identifier (some .name) 14 15 []],
            .token ";" 15],
          .named .methodDeclaration none 17 34 [
            .named .voidType (some .type) 17 21 [],
            .named .identifier (some .name) 22 23 [],
            .named .formalParameters (some .parameters) 23 30 [
              .token "(" 23,
              .named .formalParameter none 24 29 [
                .named .integralType (some .type) 24 27 [.token "int" 24],
                .named .identifier (some .name) 28 29 []],
              .token ")" 29],
            .named .block (some .body) 31 34 [.token "\x7b" 31, .token "\x7d" 33]],
          .named .classDeclaration none 35 46 [
            .token "class" 35,
            .named .identifier (some .name) 41 42 [],
            .named .classBody (some .body) 43 46 [.token "\x7b" 43, .token "\x7d" 45]],
          .token "\x7d" 47]]]

set_option maxRecDepth 100000 in
theorem memberFile_computed :
    memberFile.document.tree.HasMembersInBodies ∧
      (match build memberFile with
      | .ok e => some (e.bindings, (e.store.type ⟨0⟩).declaredTypes)
      | .error _ => none) =
        some ([.type ⟨0⟩, .variable ⟨0⟩, .method ⟨0⟩, .variable ⟨1⟩, .type ⟨1⟩], [⟨1⟩]) := by
  decide +kernel

theorem build_recordsOwners_memberFile :
    ∃ e, build memberFile = .ok e ∧ memberFile.document.tree.HasMembersInBodies ∧
      e.bindings = [.type ⟨0⟩, .variable ⟨0⟩, .method ⟨0⟩, .variable ⟨1⟩, .type ⟨1⟩] ∧
      (e.store.type ⟨0⟩).declaredTypes = [⟨1⟩] ∧ e.RecordsOwners memberFile := by
  obtain ⟨shape, computed⟩ := memberFile_computed
  split at computed
  · next e built =>
    rw [Option.some.injEq, Prod.mk.injEq] at computed
    exact ⟨e, built, shape, computed.1, computed.2, build_recordsOwners built shape⟩
  · cases computed

end Environment

end JavaScope
