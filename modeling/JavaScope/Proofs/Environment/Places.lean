import JavaScope.Proofs.Environment.Sites
import Mathlib.Data.List.Flatten

/-!
# Every declaration has a place of its own

The first pass meets every declaration of a tree once, types, methods and fields in the order of the
text, and files no two of them under one node.
-/

namespace JavaScope

namespace Node

variable {n : Node} {around : Enclosure}

theorem nodup_children_of_preorder (h : n.preorder.Nodup) : n.children.Nodup := by
  rw [preorder_eq, List.nodup_cons] at h
  exact nodup_of_nodup_flatMap h.2

theorem nodup_preorder_of_mem_children {c : Node} (h : n.preorder.Nodup) (hc : c ∈ n.children) :
    c.preorder.Nodup :=
  h.sublist (preorder_sublist (mem_preorder_of_mem_children (mem_preorder_self n) hc))

end Node

/-! ## Every declaration is met once -/

namespace Site

/-- No two of the sites are of one node. -/
def Apart (sites : List Site) : Prop :=
  (sites.map node).Nodup

namespace Apart

variable {n : Node} {xs ys : List Site} {p q : Node → Prop}

theorem nil : Apart [] :=
  List.nodup_nil

theorem named (role : Role) (n : Node) (owner method : Option Node) :
    Apart (Plan.named role n owner method) := by
  unfold Plan.named
  cases n.nameNode with
  | none => exact .nil
  | some place => exact List.nodup_singleton n

/-- Sites below different nodes are of different nodes. -/
theorem append (hx : Apart xs) (hy : Apart ys)
    (standX : ∀ s ∈ xs, ∃ c ∈ n.children, p c ∧ s.StandsIn c)
    (standY : ∀ s ∈ ys, ∃ c ∈ n.children, q c ∧ s.StandsIn c)
    (apart : ∀ c ∈ n.children, p c → ¬ q c) : Apart (xs ++ ys) := by
  rw [Apart, List.map_append, List.nodup_append]
  refine ⟨hx, hy, ?_⟩
  rintro _ hm _ hm' rfl
  obtain ⟨s, hs, rfl⟩ := List.mem_map.1 hm
  obtain ⟨s', hs', same⟩ := List.mem_map.1 hm'
  obtain ⟨c, hc, hp, stand⟩ := standX s hs
  obtain ⟨c', hc', hq, stand'⟩ := standY s' hs'
  have member := stand'.member
  rw [same] at member
  rw [Node.eq_of_mem_preorder hc' hc member stand.member] at hq
  exact apart c hc hp hq

/-- A site of a node and those below it. -/
theorem cons {s : Site} (hs : s.node = n) (hx : Apart xs)
    (stand : ∀ s ∈ xs, ∃ c ∈ n.children, s.StandsIn c) : Apart (s :: xs) := by
  rw [Apart, List.map_cons, List.nodup_cons]
  refine ⟨?_, hx⟩
  intro member
  obtain ⟨s', hs', same⟩ := List.mem_map.1 member
  obtain ⟨c, hc, stands⟩ := stand s' hs'
  have member := stands.member
  rw [same, hs] at member
  exact Node.not_mem_preorder_of_mem_children hc member

theorem named_append {role : Role} {owner method : Option Node} (hx : Apart xs)
    (stand : ∀ s ∈ xs, ∃ c ∈ n.children, s.StandsIn c) :
    Apart (Plan.named role n owner method ++ xs) := by
  unfold Plan.named
  cases n.nameNode with
  | none => exact hx
  | some place => exact hx.cons rfl stand

theorem flatMap {cs : List Node} {f : Node → List Site} (nodup : cs.Nodup)
    (below : ∀ c ∈ cs, c ∈ n.children) (each : ∀ c ∈ cs, Apart (f c))
    (stand : ∀ c ∈ cs, ∀ s ∈ f c, s.StandsIn c) : Apart (cs.flatMap f) := by
  induction cs with
  | nil => exact .nil
  | cons c rest ih =>
    obtain ⟨fresh, nodupRest⟩ := List.nodup_cons.1 nodup
    rw [List.flatMap_cons]
    have later := ih nodupRest (fun c hc => below c (List.mem_cons_of_mem _ hc))
      (fun c hc => each c (List.mem_cons_of_mem _ hc))
      (fun c hc => stand c (List.mem_cons_of_mem _ hc))
    refine append (n := n) (p := fun d => d = c) (q := fun d => d ∈ rest)
      (each c List.mem_cons_self) later ?_ ?_ ?_
    · exact fun s hs => ⟨c, below c List.mem_cons_self, rfl, stand c List.mem_cons_self s hs⟩
    · intro s hs
      obtain ⟨d, hd, hs⟩ := List.mem_flatMap.1 hs
      exact ⟨d, below d (List.mem_cons_of_mem _ hd), hd, stand d (List.mem_cons_of_mem _ hd) s hs⟩
    · rintro d - rfl member
      exact fresh member

end Apart

end Site

namespace Node

variable {n : Node} {s : Site} {around : Enclosure}

open Site

theorem apart_typeParameters (h : n.preorder.Nodup) (owner method : Option Node) :
    Apart (Plan.typeParameters n owner method) := by
  unfold Plan.typeParameters
  split
  · next list found =>
    rw [Apart, List.map_map, Function.comp_def, List.map_id']
    have below := (mem_children_of_childOfKind found).1
    exact (((nodup_children_of_preorder (nodup_preorder_of_mem_children h below)).filter _).filter _)
  · exact .nil

theorem apart_recordComponents (h : n.preorder.Nodup) : Apart (Plan.recordComponents n) := by
  unfold Plan.recordComponents
  split
  · next list found =>
    have below := (mem_children_of_childByField found).1
    have nodup := nodup_children_of_preorder (nodup_preorder_of_mem_children h below)
    refine .flatMap (n := list) ((nodup.filter _).filter _) ?_ (fun c _ => .named ..) ?_
    · exact fun c hc => (List.mem_filter.1 (List.mem_filter.1 hc).1).1
    · intro c hc s hs
      have kind : c.kind = .formalParameter := by simpa using (List.mem_filter.1 hc).2
      exact .of_mem_named (.inl (by simp [kind])) rfl hs
  · exact .nil

/-- The lists of parameters of lambda expressions are no lambda expressions. -/
theorem eq_of_mem_inferredParameters {l l' x : Node} (shape : l.HasParts) (shape' : l'.HasParts)
    (kind : l.kind = .lambdaExpression) (kind' : l'.kind = .lambdaExpression)
    (h : x ∈ Draft.inferredParameters l) (h' : x ∈ Draft.inferredParameters l') : l = l' := by
  obtain ⟨-, list, below, field, h⟩ := mem_inferredParameters h
  obtain ⟨-, list', below', field', h'⟩ := mem_inferredParameters h'
  have isList := (shape.parameters list (List.mem_filter.2 ⟨below, by simp [field]⟩)).1
  have isList' := (shape'.parameters list' (List.mem_filter.2 ⟨below', by simp [field']⟩)).1
  rcases h with rfl | h <;> rcases h' with rfl | h'
  · exact eq_of_mem_children below below'
  · rw [← eq_of_mem_children below h', kind] at isList'
    simp at isList'
  · rw [← eq_of_mem_children below' h, kind'] at isList
    simp at isList
  · rw [eq_of_mem_children h h'] at below
    exact eq_of_mem_children below below'

theorem apart_inMethod (h : n.preorder.Nodup) (method : Option Node) :
    Apart (Plan.inMethod n method) := by
  unfold Plan.inMethod
  split
  · split
    · exact .named ..
    · exact .nil
  iterate 3 exact .named ..
  · split
    · exact .named ..
    · exact .nil
  · rw [Apart, List.map_map, Function.comp_def, List.map_id']
    unfold Draft.inferredParameters
    split
    · exact List.nodup_nil
    · next list found =>
      have below := (mem_children_of_childByField found).1
      split
      · exact List.nodup_singleton list
      · exact ((nodup_children_of_preorder (nodup_preorder_of_mem_children h below)).filter _).filter _
  · exact .nil

/-- The parts of a tree in place are in place. -/
theorem shape_of_mem_children {c : Node} (shape : ∀ m ∈ n.preorder, m.HasParts)
    (hc : c ∈ n.children) : ∀ m ∈ c.preorder, m.HasParts :=
  fun m hm => shape m (mem_preorder_of_child hc hm)

theorem standsIn_of_inside (shape : ∀ m ∈ n.preorder, m.HasParts) (h : s ∈ n.sitesInside around) :
    ∃ c ∈ n.children, s.StandsIn c := by
  rw [sitesInside_eq] at h
  obtain ⟨c, hc, hs⟩ := List.mem_flatMap.1 h
  have below := (List.mem_filter.1 hc).1
  exact ⟨c, below, standsIn_of_mem_sites (shape_of_mem_children shape below) hs⟩

theorem standsIn_of_inside_self (shape : ∀ m ∈ n.preorder, m.HasParts)
    (h : s ∈ n.sitesInside around) : s.StandsIn n := by
  obtain ⟨c, hc, hs⟩ := standsIn_of_inside shape h
  exact .of_child hc hs

theorem standsIn_of_field {f : Field} (shape : ∀ m ∈ n.preorder, m.HasParts)
    (h : s ∈ n.sitesOfField f around) : ∃ c ∈ n.children, c.field = some f ∧ s.StandsIn c := by
  obtain ⟨c, hc, hs⟩ := mem_sitesOfField h
  obtain ⟨below, field⟩ := List.mem_filter.1 hc
  exact ⟨c, below, by simpa using field,
    standsIn_of_inside_self (shape_of_mem_children shape below) hs⟩

/-- The parameter of a method, and what is declared in it. -/
theorem standsIn_of_parameter {owner method : Option Node} (shape : ∀ m ∈ n.preorder, m.HasParts)
    (h : n.kind.isMethodParameter = true ∧ s ∈ Plan.named .localVariable n owner method ∨
      s ∈ n.sitesInside around) : s.StandsIn n := by
  rcases h with ⟨isParameter, h⟩ | h
  · exact .of_mem_named (isVariable_of_isMethodParameter isParameter) rfl h
  · exact standsIn_of_inside_self shape h

theorem standsIn_of_parameters (shape : ∀ m ∈ n.preorder, m.HasParts)
    (h : s ∈ n.sitesOfParameters around) :
    ∃ c ∈ n.children, c.field = some .parameters ∧ s.StandsIn c := by
  obtain ⟨list, hlist, each, heach, hs⟩ := mem_sitesOfParameters h
  obtain ⟨below, field⟩ := List.mem_filter.1 hlist
  have inner := (List.mem_filter.1 heach).1
  have shapeEach := shape_of_mem_children (shape_of_mem_children shape below) inner
  exact ⟨list, below, by simpa using field, .of_child inner (standsIn_of_parameter shapeEach hs)⟩

/-- The list of type parameters is neither the list of parameters nor the body of a declaration. -/
theorem not_field_of_typeParameters {c : Node} (shape : n.HasParts)
    (declares : n.kind.isTypeDeclaration = true ∨ n.kind.isMethodDeclaration = true)
    (hc : c ∈ n.children) (kind : c.kind = .typeParameters) :
    ¬ (c.field = some .parameters ∨ c.field = some .body) := by
  rintro (field | field)
  · have isList := (shape.parameters c (List.mem_filter.2 ⟨hc, by simp [field]⟩)).1
    simp [kind] at isList
  · have member : c ∈ n.childrenByField .body := List.mem_filter.2 ⟨hc, by simp [field]⟩
    rcases declares with isType | isMethod
    · have isBody := shape.typeBody isType c member
      simp [kind, Kind.isTypeBody] at isBody
    · have isBlock := shape.methodBody isMethod c member
      simp [kind, Kind.isBlock] at isBlock

/-- The type parameters, the parameters and the body of a declaration are three nodes. -/
theorem apart_declaration {role : Role} {owner method owner' method' : Option Node}
    {xs ys : List Site} (shape : n.HasParts)
    (declares : n.kind.isTypeDeclaration = true ∨ n.kind.isMethodDeclaration = true)
    (nodup : n.preorder.Nodup) (hx : Apart xs) (hy : Apart ys)
    (standX : ∀ s ∈ xs, ∃ c ∈ n.children, c.field = some .parameters ∧ s.StandsIn c)
    (standY : ∀ s ∈ ys, ∃ c ∈ n.children, c.field = some .body ∧ s.StandsIn c) :
    Apart (⟨role, n, n, owner, method⟩ ::
      (Plan.typeParameters n owner' method' ++ (xs ++ ys))) := by
  have rest : Apart (xs ++ ys) := by
    refine .append hx hy standX standY ?_
    intro c _ field field'
    rw [field] at field'
    cases field'
  have standRest : ∀ s ∈ xs ++ ys, ∃ c ∈ n.children,
      (c.field = some .parameters ∨ c.field = some .body) ∧ s.StandsIn c := by
    intro s hs
    rcases List.mem_append.1 hs with hs | hs
    · obtain ⟨c, hc, field, stand⟩ := standX s hs
      exact ⟨c, hc, .inl field, stand⟩
    · obtain ⟨c, hc, field, stand⟩ := standY s hs
      exact ⟨c, hc, .inr field, stand⟩
  have all := Apart.append (apart_typeParameters nodup owner' method') rest
    (fun s => standsIn_of_mem_typeParameters) standRest
    fun c hc kind => not_field_of_typeParameters shape declares hc kind
  refine all.cons rfl fun s hs => ?_
  rcases List.mem_append.1 hs with hs | hs
  · obtain ⟨c, hc, -, stand⟩ := standsIn_of_mem_typeParameters hs
    exact ⟨c, hc, stand⟩
  · obtain ⟨c, hc, -, stand⟩ := standRest s hs
    exact ⟨c, hc, stand⟩

theorem apart_sitesInside (shape : ∀ m ∈ n.preorder, m.HasParts) (nodup : n.preorder.Nodup)
    (ih : ∀ c ∈ n.children, ∀ around, Apart (c.sites around)) : Apart (n.sitesInside around) := by
  rw [sitesInside_eq]
  have below : ∀ c ∈ n.namedChildren, c ∈ n.children := fun c hc => (List.mem_filter.1 hc).1
  exact .flatMap ((nodup_children_of_preorder nodup).filter _) below
    (fun c hc => ih c (below c hc) around)
    fun c hc s hs => standsIn_of_mem_sites (shape_of_mem_children shape (below c hc)) hs

theorem apart_sitesOfField {f : Field}
    (ih : ∀ c ∈ n.children, ∀ around, Apart (c.sitesInside around)) :
    Apart (n.sitesOfField f around) := by
  unfold sitesOfField
  split
  · next c found => exact ih c (List.mem_of_find?_eq_some found) around
  · exact .nil

theorem apart_sitesOfParameters (shape : ∀ m ∈ n.preorder, m.HasParts) (nodup : n.preorder.Nodup)
    (ih : ∀ c ∈ n.children, ∀ each ∈ c.children, ∀ around, Apart (each.sitesInside around)) :
    Apart (n.sitesOfParameters around) := by
  unfold sitesOfParameters
  split
  · next list found =>
    have below := List.mem_of_find?_eq_some found
    have inner : ∀ each ∈ list.namedChildren, each ∈ list.children :=
      fun each heach => (List.mem_filter.1 heach).1
    have nodupList := nodup_children_of_preorder (nodup_preorder_of_mem_children nodup below)
    refine .flatMap (nodupList.filter _) inner (fun each heach => ?_) fun each heach s hs => ?_
    · have shapeEach := shape_of_mem_children (shape_of_mem_children shape below) (inner each heach)
      split
      · exact (ih list below each (inner each heach) around).named_append
          fun s hs => standsIn_of_inside shapeEach hs
      · exact ih list below each (inner each heach) around
    · have shapeEach := shape_of_mem_children (shape_of_mem_children shape below) (inner each heach)
      exact standsIn_of_parameter shapeEach (mem_parameter_cases hs)
  · exact .nil

/-- What is declared for a node itself is declared for no node below it, and the names among the
parameters of a lambda expression belong to no lambda expression below it. -/
theorem apart_inMethod_append {method : Option Node} (shape : ∀ m ∈ n.preorder, m.HasParts)
    (nodup : n.preorder.Nodup) (inside : Apart (n.sitesInside around)) :
    Apart (Plan.inMethod n method ++ n.sitesInside around) := by
  rw [Apart, List.map_append, List.nodup_append]
  refine ⟨apart_inMethod nodup method, inside, ?_⟩
  rintro _ hm _ hm' rfl
  obtain ⟨s, hs, rfl⟩ := List.mem_map.1 hm
  obtain ⟨s', hs', same⟩ := List.mem_map.1 hm'
  obtain ⟨c, hc, stand⟩ := standsIn_of_inside shape hs'
  rcases mem_inMethod_cases hs with ⟨-, here⟩ | ⟨kind, name, inferred, rfl⟩
  · have member := stand.member
    rw [same, (of_mem_named here).2] at member
    exact not_mem_preorder_of_mem_children hc member
  · have same : s'.node = name := same
    have isName := (mem_inferredParameters inferred).1
    rw [← same] at isName
    rcases stand.filed with ⟨-, declares⟩ | ⟨isVariable, -⟩ | ⟨-, l, hl, kind', inferred'⟩
    · exact declares.kind_ne_identifier isName
    · exact isVariable.kind_ne_identifier isName
    · rw [same] at inferred'
      have shapeL := shape l (mem_preorder_of_child hc hl)
      rw [eq_of_mem_inferredParameters shapeL (shape n (mem_preorder_self n)) kind' kind inferred'
        inferred] at hl
      exact not_mem_preorder_of_mem_children hc hl

/-- The first pass meets every node at most once to declare something for it. -/
theorem apart_sites (shape : ∀ m ∈ n.preorder, m.HasParts) (nodup : n.preorder.Nodup) :
    Apart (n.sites around) := by
  induction n using induction_below generalizing around with
  | h n ih =>
    have below : ∀ c ∈ n.children, ∀ m ∈ c.preorder, ∀ around, Apart (m.sites around) := by
      intro c hc m hm around
      have inner := mem_preorder_of_child hc hm
      exact ih c hc m hm (fun x hx => shape x (mem_preorder_trans inner hx))
        (nodup.sublist (preorder_sublist inner))
    have self : ∀ c ∈ n.children, ∀ around, Apart (c.sites around) :=
      fun c hc => below c hc c (mem_preorder_self c)
    have inside : ∀ c ∈ n.children, ∀ m ∈ c.preorder, ∀ around, Apart (m.sitesInside around) := by
      intro c hc m hm around
      have inner := mem_preorder_of_child hc hm
      exact apart_sitesInside (fun x hx => shape x (mem_preorder_trans inner hx))
        (nodup.sublist (preorder_sublist inner))
        fun d hd => below c hc d (mem_preorder_of_mem_children hm hd)
    have insideSelf : ∀ c ∈ n.children, ∀ around, Apart (c.sitesInside around) :=
      fun c hc => inside c hc c (mem_preorder_self c)
    have here : ∀ around, Apart (n.sitesInside around) :=
      fun around => apart_sitesInside shape nodup self
    rw [sites_eq]
    split
    · next isType =>
      refine apart_declaration (shape n (mem_preorder_self n)) (.inl isType) nodup ?_
        (apart_sitesOfField insideSelf) ?_ fun s => standsIn_of_field shape
      · split
        · exact apart_recordComponents nodup
        · exact .nil
      · intro s hs
        split at hs
        · exact standsIn_of_mem_recordComponents hs
        · cases hs
    split
    · exact (here _).cons rfl fun s => standsIn_of_inside shape
    split
    · next isMethod =>
      exact apart_declaration (shape n (mem_preorder_self n)) (.inr isMethod) nodup
        (apart_sitesOfParameters shape nodup fun c hc each heach =>
          inside c hc each (mem_preorder_of_child heach (mem_preorder_self each)))
        (apart_sitesOfField insideSelf) (fun s => standsIn_of_parameters shape)
        fun s => standsIn_of_field shape
    split
    · next isField =>
      have below : ∀ c ∈ n.declarators, c ∈ n.children := fun c hc => (List.mem_filter.1 hc).1
      refine .flatMap ((nodup_children_of_preorder nodup).filter _) below (fun c hc => ?_)
        fun c hc s hs => ?_
      · exact (insideSelf c (below c hc) _).named_append
          fun s => standsIn_of_inside (shape_of_mem_children shape (below c hc))
      · have kind := (shape n (mem_preorder_self n)).declarators isField c hc
        rcases List.mem_append.1 hs with hs | hs
        · exact .of_mem_named
            (.inr ⟨kind, n, parent_of_mem_children (below c hc), .inr isField⟩) rfl hs
        · exact standsIn_of_inside_self (shape_of_mem_children shape (below c hc)) hs
    split
    · exact (here _).named_append fun s => standsIn_of_inside shape
    split
    · exact here _
    · exact apart_inMethod_append shape nodup (here around)

end Node

/-! ## Types, methods and fields stand in the order of the text -/

namespace Site

/-- The nodes of the types, methods and fields among some sites. -/
def members (sites : List Site) : List Node :=
  (sites.filter (·.role.isMember)).map node

@[simp] theorem members_nil : members [] = [] := rfl

@[simp] theorem members_append (xs ys : List Site) : members (xs ++ ys) = members xs ++ members ys := by
  rw [members, List.filter_append, List.map_append]
  rfl

@[simp] theorem members_cons (s : Site) (xs : List Site) :
    members (s :: xs) = (if s.role.isMember then [s.node] else []) ++ members xs := by
  rw [members, List.filter_cons]
  split <;> rfl

@[simp] theorem members_flatMap {α : Type} (cs : List α) (f : α → List Site) :
    members (cs.flatMap f) = cs.flatMap fun c => members (f c) := by
  rw [members, List.filter_flatMap, List.map_flatMap]
  rfl

theorem members_eq_nil {sites : List Site} (h : ∀ s ∈ sites, s.role.isMember = false) :
    members sites = [] := by
  rw [members, List.map_eq_nil_iff, List.filter_eq_nil_iff]
  intro s hs
  simp [h s hs]

theorem members_named_sublist (role : Role) (n : Node) (owner method : Option Node) :
    (members (Plan.named role n owner method)).Sublist [n] := by
  unfold Plan.named
  cases n.nameNode with
  | none => exact List.nil_sublist _
  | some place =>
    show (members [⟨role, n, place, owner, method⟩]).Sublist [n]
    rw [members_cons, members_nil, List.append_nil]
    split
    · exact .refl _
    · exact List.nil_sublist _

@[simp] theorem members_typeParameters (n : Node) (owner method : Option Node) :
    members (Plan.typeParameters n owner method) = [] :=
  members_eq_nil fun _ hs => congrArg Role.isMember (Node.role_of_mem_typeParameters hs)

@[simp] theorem members_named_localVariable (n : Node) (owner method : Option Node) :
    members (Plan.named .localVariable n owner method) = [] :=
  members_eq_nil fun _ hs => congrArg Role.isMember (Node.of_mem_named hs).1

@[simp] theorem members_inMethod (n : Node) (method : Option Node) :
    members (Plan.inMethod n method) = [] :=
  members_eq_nil fun _ hs => congrArg Role.isMember (Node.role_of_mem_inMethod hs)

end Site

namespace Node

open Site

variable {n : Node} {s : Site} {around : Enclosure}

/-- What stands below the parameters of a declaration comes before what stands below its body. -/
theorem sublist_of_parts {xs ys : List Node} (shape : n.HasParts)
    (hx : xs = [] ∨ ∃ c ∈ n.children, c.field = some .parameters ∧ xs.Sublist c.preorder)
    (hy : ys = [] ∨ ∃ c ∈ n.children, c.field = some .body ∧ ys.Sublist c.preorder) :
    (xs ++ ys).Sublist (n.children.flatMap preorder) := by
  have single : ∀ c ∈ n.children, ∀ zs : List Node, zs.Sublist c.preorder →
      zs.Sublist (n.children.flatMap preorder) := fun c hc zs h =>
    h.trans (List.sublist_flatten_of_mem (List.mem_map_of_mem hc))
  rcases hx with rfl | ⟨c, hc, field, hx⟩
  · rcases hy with rfl | ⟨c', hc', -, hy⟩
    · exact List.nil_sublist _
    · exact single c' hc' ys hy
  · rcases hy with rfl | ⟨c', hc', field', hy⟩
    · rw [List.append_nil]
      exact single c hc xs hx
    · have ne : c ≠ c' := by
        rintro rfl
        rw [field] at field'
        cases field'
      have before : [c, c'].Sublist n.children := by
        refine (pair_sublist_of_mem hc hc' ne).resolve_right fun back => ?_
        exact shape.order.forall_sublist back field' field
      have both : (xs ++ ys).Sublist ([c, c'].flatMap preorder) := by
        rw [List.flatMap_cons, List.flatMap_singleton]
        exact hx.append hy
      exact both.trans (before.flatMap preorder)

theorem members_sitesInside_sublist
    (ih : ∀ c ∈ n.children, ∀ around, (members (c.sites around)).Sublist c.preorder) :
    (members (n.sitesInside around)).Sublist (n.children.flatMap preorder) := by
  rw [sitesInside_eq, members_flatMap]
  refine (List.Sublist.flatMap_right _ fun c hc => ?_).trans
    (List.filter_sublist.flatMap preorder)
  exact ih c (List.mem_filter.1 hc).1 around

theorem members_sitesOfField_cases {f : Field}
    (ih : ∀ c ∈ n.children, ∀ around, (members (c.sitesInside around)).Sublist c.preorder) :
    members (n.sitesOfField f around) = [] ∨
      ∃ c ∈ n.children, c.field = some f ∧
        (members (n.sitesOfField f around)).Sublist c.preorder := by
  unfold sitesOfField
  split
  · next c found =>
    have below := List.mem_of_find?_eq_some found
    exact .inr ⟨c, below, by simpa using List.find?_some found, ih c below around⟩
  · exact .inl rfl

theorem members_sitesOfParameters_cases
    (ih : ∀ c ∈ n.children, ∀ each ∈ c.children, ∀ around,
      (members (each.sitesInside around)).Sublist each.preorder) :
    members (n.sitesOfParameters around) = [] ∨
      ∃ c ∈ n.children, c.field = some .parameters ∧
        (members (n.sitesOfParameters around)).Sublist c.preorder := by
  unfold sitesOfParameters
  split
  · next list found =>
    have below := List.mem_of_find?_eq_some found
    refine .inr ⟨list, below, by simpa using List.find?_some found, ?_⟩
    rw [members_flatMap, preorder_eq]
    apply List.Sublist.cons
    refine (List.Sublist.flatMap_right _ fun each heach => ?_).trans
      (List.filter_sublist.flatMap preorder)
    rw [members_append]
    have none : members (if each.kind.isMethodParameter then
        Plan.named .localVariable each none (some n) else []) = [] := by
      split
      · exact members_named_localVariable ..
      · rfl
    rw [none]
    exact ih list below each (List.mem_filter.1 heach).1 around
  · exact .inl rfl

theorem members_recordComponents_cases :
    members (Plan.recordComponents n) = [] ∨
      ∃ c ∈ n.children, c.field = some .parameters ∧
        (members (Plan.recordComponents n)).Sublist c.preorder := by
  unfold Plan.recordComponents
  split
  · next list found =>
    obtain ⟨below, field⟩ := mem_children_of_childByField found
    refine .inr ⟨list, below, field, ?_⟩
    rw [members_flatMap, preorder_eq]
    apply List.Sublist.cons
    refine (List.Sublist.flatMap_right _ fun each _ => ?_).trans
      ((List.filter_sublist.trans List.filter_sublist).flatMap preorder)
    refine (members_named_sublist ..).trans ?_
    rw [preorder_eq, List.singleton_sublist]
    exact List.mem_cons_self
  · exact .inl rfl

/-- The variable of a node, and what is declared below the node. -/
theorem members_named_append_sublist {role : Role} {owner method : Option Node}
    (inside : (members (n.sitesInside around)).Sublist (n.children.flatMap preorder)) :
    (members (Plan.named role n owner method ++ n.sitesInside around)).Sublist n.preorder := by
  rw [members_append, preorder_eq]
  exact (members_named_sublist ..).append inside

/-- The first pass meets types, methods and fields in the order of the text. -/
theorem members_sites_sublist (shape : ∀ m ∈ n.preorder, m.HasParts) :
    (members (n.sites around)).Sublist n.preorder := by
  induction n using induction_below generalizing around with
  | h n ih =>
    have below : ∀ c ∈ n.children, ∀ m ∈ c.preorder, ∀ around,
        (members (m.sites around)).Sublist m.preorder := by
      intro c hc m hm around
      exact ih c hc m hm fun x hx => shape x (mem_preorder_of_child hc (mem_preorder_trans hm hx))
    have self : ∀ c ∈ n.children, ∀ around, (members (c.sites around)).Sublist c.preorder :=
      fun c hc => below c hc c (mem_preorder_self c)
    have inside : ∀ c ∈ n.children, ∀ m ∈ c.preorder, ∀ around,
        (members (m.sitesInside around)).Sublist (m.children.flatMap preorder) :=
      fun c hc m hm around => members_sitesInside_sublist
        fun d hd => below c hc d (mem_preorder_of_mem_children hm hd)
    have loose : ∀ c ∈ n.children, ∀ m ∈ c.preorder, ∀ around,
        (members (m.sitesInside around)).Sublist m.preorder := by
      intro c hc m hm around
      rw [preorder_eq m]
      exact (inside c hc m hm around).cons m
    have insideSelf := fun c hc => loose c hc c (mem_preorder_self c)
    have here : ∀ around, (members (n.sitesInside around)).Sublist (n.children.flatMap preorder) :=
      fun around => members_sitesInside_sublist self
    have parts := @sublist_of_parts n
    rw [sites_eq]
    split
    · rw [members_cons, members_append, members_append, members_typeParameters, List.nil_append,
        preorder_eq]
      refine (List.Sublist.refl [n]).append (parts (shape n (mem_preorder_self n)) ?_
        (members_sitesOfField_cases insideSelf))
      split
      · exact members_recordComponents_cases
      · exact .inl rfl
    split
    · rw [members_cons, preorder_eq]
      exact (List.Sublist.refl [n]).append (here _)
    split
    · rw [members_cons, members_append, members_append, members_typeParameters, List.nil_append,
        preorder_eq]
      refine (List.Sublist.refl [n]).append (parts (shape n (mem_preorder_self n))
        (members_sitesOfParameters_cases fun c hc each heach => ?_)
        (members_sitesOfField_cases insideSelf))
      exact loose c hc each (mem_preorder_of_child heach (mem_preorder_self each))
    split
    · rw [members_flatMap, preorder_eq]
      apply List.Sublist.cons
      refine (List.Sublist.flatMap_right _ fun c hc => ?_).trans
        (List.filter_sublist.flatMap preorder)
      have below := (List.mem_filter.1 hc).1
      exact members_named_append_sublist (inside c below c (mem_preorder_self c) _)
    split
    · exact members_named_append_sublist (here _)
    split
    · rw [preorder_eq]
      exact (here _).cons n
    · rw [members_append, members_inMethod, preorder_eq]
      exact (here _).cons n

/-! ## The names of variables -/

theorem IsVariable.kind_cases (h : n.IsVariable) :
    n.kind = .enumConstant ∨ n.kind.isCodeVariable = true := by
  rcases h with h | ⟨h, -⟩
  · simp only [List.mem_cons, List.not_mem_nil, or_false] at h
    rcases h with h | h | h | h | h | h <;> simp [h, Kind.isCodeVariable]
  · simp [h, Kind.isCodeVariable]

section Name

variable {name : Node} (kinds : n.kind = .enumConstant ∨ n.kind.isCodeVariable = true)
  (named : n.nameNode = some name)

include kinds named

/-- Where the name of a variable stands. -/
theorem variableName_cases :
    name.field = some .name ∧ (name ∈ n.children ∨
      n.kind = .spreadParameter ∧ ∃ inner ∈ n.children, name ∈ inner.children ∧
        inner.kind = .variableDeclarator) := by
  rcases nameNode_cases named with ⟨below, field⟩ | ⟨kind, inner, above, below, field, inside⟩ |
    ⟨kind, -⟩
  · exact ⟨field, .inl below⟩
  · exact ⟨field, .inr ⟨kind, inner, above, below, inside⟩⟩
  · simp [kind, Kind.isCodeVariable] at kinds

/-- The node that holds the name of a variable is no list of parameters. -/
theorem variableName_not_inferred {l : Node} (shape : l.HasParts) :
    name ∉ Draft.inferredParameters l := by
  intro inferred
  obtain ⟨-, list, below, field, h⟩ := mem_inferredParameters inferred
  have isList := (shape.parameters list (List.mem_filter.2 ⟨below, by simp [field]⟩)).1
  obtain ⟨isName, h'⟩ := variableName_cases kinds named
  rcases h with rfl | h
  · rw [field] at isName
    cases isName
  · rcases h' with below' | ⟨-, inner, -, below', isInner⟩
    · rw [eq_of_mem_children h below'] at isList
      simp only [List.mem_cons, List.not_mem_nil, or_false] at isList
      rcases isList with kind | kind | kind <;> simp [kind, Kind.isCodeVariable] at kinds
    · rw [eq_of_mem_children h below', isInner] at isList
      simp at isList

end Name

end Node

/-! ## No two declarations have one place -/

namespace Site

variable {root : Node} {s s' : Site}

theorem place_cases (isVariable : s.node.IsVariable) (named : s.node.nameNode = some s.place) :
    s.place.field = some .name ∧ (s.place ∈ s.node.children ∨
      s.node.kind = .spreadParameter ∧ ∃ inner ∈ s.node.children, s.place ∈ inner.children ∧
        inner.kind = .variableDeclarator) :=
  Node.variableName_cases isVariable.kind_cases named

/-- The declarator in a varargs parameter declares no variable of its own. -/
theorem not_isVariable_inner {n inner : Node} (kind : n.kind = .spreadParameter)
    (below : inner ∈ n.children) (isInner : inner.kind = .variableDeclarator) :
    ¬ inner.IsVariable := by
  rintro (h | ⟨-, up, above, h⟩)
  · simp [isInner] at h
  · rw [Node.parent_of_mem_children below] at above
    cases above
    simp [kind, Kind.isFieldDeclaration] at h

/-- Variables that are filed under one name are the same. -/
theorem node_eq_of_names (hs : s.node.IsVariable) (named : s.node.nameNode = some s.place)
    (hs' : s'.node.IsVariable) (named' : s'.node.nameNode = some s'.place)
    (same : s.place = s'.place) : s.node = s'.node := by
  obtain ⟨-, below | ⟨kind, inner, above, below, isInner⟩⟩ := place_cases hs named <;>
    obtain ⟨-, below' | ⟨kind', inner', above', below', isInner'⟩⟩ := place_cases hs' named' <;>
    rw [← same] at below'
  · exact Node.eq_of_mem_children below below'
  · rw [Node.eq_of_mem_children below below'] at hs
    exact absurd hs (not_isVariable_inner kind' above' isInner')
  · rw [Node.eq_of_mem_children below' below] at hs'
    exact absurd hs' (not_isVariable_inner kind above isInner)
  · rw [Node.eq_of_mem_children below below'] at above
    exact Node.eq_of_mem_children above above'

/-- The name of a variable is an identifier. -/
theorem kind_of_name (shape : ∀ m ∈ root.preorder, m.HasParts) (stand : s.StandsIn root)
    (hs : s.node.IsVariable) (named : s.node.nameNode = some s.place) :
    s.place.kind ∈ [Kind.identifier, .other "underscore_pattern"] := by
  obtain ⟨isName, below | ⟨kind, inner, above, below, isInner⟩⟩ := place_cases hs named
  · refine (shape _ stand.member).name ?_ _ (List.mem_filter.2 ⟨below, by simp [isName]⟩)
    exact hs.declaresName
  · have member := Node.mem_preorder_of_mem_children stand.member above
    refine (shape _ member).name ?_ _ (List.mem_filter.2 ⟨below, by simp [isName]⟩)
    simp [isInner, Kind.declaresName]

/-- The name of a variable declares nothing itself. -/
theorem name_not_declares (shape : ∀ m ∈ root.preorder, m.HasParts) (stand : s.StandsIn root)
    (hs : s.node.IsVariable) (named : s.node.nameNode = some s.place) :
    ¬ s.place.DeclaresItself := by
  have kind := kind_of_name shape stand hs named
  simp only [List.mem_cons, List.not_mem_nil, or_false] at kind
  intro declares
  rcases kind with kind | kind <;>
    simp [Node.DeclaresItself, Node.isAnonymousBody, kind, Kind.isTypeDeclaration,
      Kind.isMethodDeclaration] at declares

/-- Sites that are filed under one node are of one node. -/
theorem node_eq_of_place_eq (shape : ∀ m ∈ root.preorder, m.HasParts) (stand : s.StandsIn root)
    (stand' : s'.StandsIn root) (same : s.place = s'.place) : s.node = s'.node := by
  rcases stand.filed with ⟨here, declares⟩ | ⟨isVariable, named⟩ | ⟨here, l, hl, -, inferred⟩ <;>
    rcases stand'.filed with ⟨here', declares'⟩ | ⟨isVariable', named'⟩ |
      ⟨here', l', hl', -, inferred'⟩
  · exact here.symm.trans (same.trans here')
  · rw [← here, same] at declares
    exact absurd declares (name_not_declares shape stand' isVariable' named')
  · exact here.symm.trans (same.trans here')
  · rw [← here', ← same] at declares'
    exact absurd declares' (name_not_declares shape stand isVariable named)
  · exact node_eq_of_names isVariable named isVariable' named' same
  · rw [← here', ← same] at inferred'
    exact absurd inferred'
      (Node.variableName_not_inferred isVariable.kind_cases named (shape l' hl'))
  · exact here.symm.trans (same.trans here')
  · rw [← here, same] at inferred
    exact absurd inferred
      (Node.variableName_not_inferred isVariable'.kind_cases named' (shape l hl))
  · exact here.symm.trans (same.trans here')

/-- No two sites below a node are filed under one node. -/
theorem nodup_places {n : Node} {around : Enclosure} (shape : ∀ m ∈ n.preorder, m.HasParts)
    (nodup : n.preorder.Nodup) : ((n.sitesInside around).map place).Nodup := by
  have apart : Apart (n.sitesInside around) := Node.apart_sitesInside shape nodup fun c hc around =>
    Node.apart_sites (Node.shape_of_mem_children shape hc)
      (Node.nodup_preorder_of_mem_children nodup hc)
  rw [Apart, List.Nodup, List.pairwise_map] at apart
  rw [List.Nodup, List.pairwise_map]
  refine apart.imp_of_mem fun hs hs' ne same => ne ?_
  exact node_eq_of_place_eq shape (Node.standsIn_of_inside_self shape hs)
    (Node.standsIn_of_inside_self shape hs') same

/-- The node that a site is filed under stands in the tree. -/
theorem StandsIn.place_mem {n : Node} (h : s.StandsIn n) : s.place ∈ n.preorder := by
  rcases h.filed with ⟨here, -⟩ | ⟨isVariable, named⟩ | ⟨here, -⟩
  · rw [here]
    exact h.member
  · obtain ⟨-, below | ⟨-, inner, above, below, -⟩⟩ := place_cases isVariable named
    · exact Node.mem_preorder_of_mem_children h.member below
    · exact Node.mem_preorder_of_mem_children (Node.mem_preorder_of_mem_children h.member above) below
  · rw [here]
    exact h.member

/-- No two sites of a tree are filed under one key. -/
theorem nodup_keys {t : Tree} (regular : t.IsRegular) (around : Enclosure) :
    ((t.root.sitesInside around).map (·.place.key)).Nodup := by
  have places : ((t.root.sitesInside around).map place).Nodup :=
    nodup_places regular.parts (List.Nodup.of_map _ regular.distinct)
  have member : ∀ m ∈ (t.root.sitesInside around).map place, m ∈ t.root.preorder := by
    intro m hm
    obtain ⟨s, hs, rfl⟩ := List.mem_map.1 hm
    exact (Node.standsIn_of_inside_self regular.parts hs).place_mem
  have keys := places.map_on fun m hm m' hm' same =>
    List.inj_on_of_nodup_map regular.distinct (member m hm) (member m' hm') same
  rw [List.map_map] at keys
  exact keys

end Site

end JavaScope
