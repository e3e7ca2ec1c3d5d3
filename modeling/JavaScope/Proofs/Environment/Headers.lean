import JavaScope.Proofs.Environment.Spelling

/-!
# Supertypes that a unit lists

The second pass finds a type for every bound of a type parameter and for every interface in the header
of a type, if all array types of the tree have an element. Types that are made on the way list no
supertypes. So in every environment that has grown from a built one, no listed supertype is missing.
-/

namespace JavaScope

/-- Every array type has an element. -/
def Tree.HasElements (t : Tree) : Prop :=
  ∀ n ∈ t.root.preorder, n.kind = .arrayType → ∃ c ∈ n.children, c.field = some .element

instance (t : Tree) : Decidable t.HasElements :=
  inferInstanceAs (Decidable (∀ n ∈ t.root.preorder, _))

/-- None of the supertypes that a type lists is missing: of a type parameter the bounds, and otherwise
the interfaces. -/
def TypeBinding.ListsTypes (b : TypeBinding) : Prop :=
  none ∉ if b.isTypeVariable then b.bounds else b.interfaces

theorem TypeBinding.IsLeaf.listsTypes {b : TypeBinding} (leaf : b.IsLeaf) : b.ListsTypes := by
  rw [ListsTypes, leaf.isTypeVariable, leaf.interfaces]
  exact List.not_mem_nil

namespace Environment

/-- No type of the environment lists a supertype that is missing. -/
def ListsTypes (e : Environment) : Prop :=
  ∀ t, (e.store.type t).ListsTypes

theorem ListsTypes.addType {e : Environment} {b : TypeBinding} (h : e.ListsTypes) (leaf : b.IsLeaf) :
    ListsTypes { e with store := (e.store.addType b).2 } := by
  intro t
  rcases Store.type_addType_cases e.store b t with ⟨-, same⟩ | ⟨-, same⟩ | ⟨-, same⟩
  · rw [same]
    exact h t
  · rw [same]
    exact leaf.listsTypes
  · rw [same]
    exact TypeBinding.isLeaf_default.listsTypes

instance : LastsEntries ListsTypes where
  addType h _ leaf := h.addType leaf
  recover h _ := h.addType (TypeBinding.isLeaf_ofName _)
  derive h _ _ leaf := h.addType leaf

/-! ## Types in the text -/

/-- The action answers with a type whenever it answers. -/
abbrev FindsType (action : EnvironmentM (Option TypeId)) : Prop :=
  Ensures (fun _ => True) action fun t _ => t ≠ none

theorem findsType_some (action : EnvironmentM TypeId) : FindsType (do return some (← action)) :=
  (Ensures.anything _ action).bind fun _ => .pure fun _ _ => Option.some_ne_none _

theorem FindsType.bind {α : Type} {R : α → Environment → Prop}
    {action : EnvironmentM (Option TypeId)} {rest : Option TypeId → EnvironmentM α}
    (h : FindsType action) (h' : ∀ t, t ≠ none → Ensures (fun _ => True) (rest t) R) :
    Ensures (fun _ => True) (action >>= rest) R :=
  Ensures.bind h fun t e found => h' t found e trivial

theorem findsType_arrayOf {element : Option TypeId} (some : element ≠ none) (dimensions : Int) :
    FindsType (arrayOf element dimensions) := by
  cases element with
  | none => exact absurd rfl some
  | some element =>
    refine .ite (fun _ => .pure fun _ _ => some) fun _ => ?_
    refine (Ensures.anything _ _).bind fun s => .ite (fun _ => ?_) fun _ => findsType_some _
    exact .ofExcept_bind fun inner _ => findsType_some _

theorem findsType_parameterized {generic : Option TypeId} (some : generic ≠ none)
    (arguments : List TypeId) : FindsType (parameterized generic arguments) := by
  refine .ite (fun _ => .pure fun _ _ => some) fun _ => .ofExcept_bind fun generic _ => ?_
  refine (Ensures.anything _ _).bind fun s => .ofExcept_bind fun keys _ => .ofExcept_bind fun key _ => ?_
  exact findsType_some _

/-- Where array types have elements, the nodes of types stand for types. -/
theorem findsType_resolveType {n : Node} (place : Node)
    (elements : ∀ m ∈ n.preorder, m.kind = .arrayType → ∃ c ∈ m.children, c.field = some .element) :
    FindsType (resolveType n place) := by
  induction n using Node.induction with
  | h n ih =>
    have below : ∀ each ∈ n.children.map fun c => (c, c.fold typeReadingStep),
        FindsType (each.2.here place) := by
      intro each heach
      obtain ⟨c, hc, rfl⟩ := List.mem_map.1 heach
      refine ih c hc fun m hm => elements m ?_
      rw [Node.preorder_eq]
      exact List.mem_cons_of_mem n (List.mem_flatMap.2 ⟨c, hc, hm⟩)
    have named : ∀ each ∈ (n.children.map fun c => (c, c.fold typeReadingStep)).filter (·.1.isNamed),
        FindsType (each.2.here place) := fun each h => below each (List.mem_filter.1 h).1
    rw [resolveType, Node.fold_eq]
    refine (Ensures.anything _ _).bind fun e => ?_
    dsimp only
    split
    iterate 4 exact findsType_some _
    · next kind =>
      -- an array over the type below
      obtain ⟨c, hc, field⟩ := elements n (Node.mem_preorder_self n) kind
      split
      · next found =>
        exact (below _ (List.mem_of_find?_eq_some found)).bind fun element found =>
          findsType_arrayOf found _
      · next missing =>
        have other := List.find?_eq_none.1 missing _ (List.mem_map_of_mem hc)
        simp [field] at other
    · -- a generic type with its arguments
      refine .ofExcept_bind fun base hbase => ?_
      refine (named base (List.mem_of_mem_head? (needed_eq_ok.1 hbase))).bind fun generic found => ?_
      have made : ∀ arguments, FindsType (parameterized generic arguments) :=
        findsType_parameterized found
      split
      · exact (Ensures.anything _ _).bind made
      · exact (Ensures.anything _ _).bind made
    · exact findsType_some _
    · exact findsType_some _
    · exact .ofExcept_bind fun last hlast =>
        named last (List.mem_of_getLast? (needed_eq_ok.1 hlast))
    · exact (Ensures.anything _ _).bind fun bounds => findsType_some _
    · exact findsType_some _

/-! ## The second pass -/

theorem keeps_listsTypes_modifyType (t : TypeId) {change : TypeBinding → TypeBinding}
    (lists : ∀ b, b.ListsTypes → (change b).ListsTypes) :
    Keeps ListsTypes (EnvironmentM.modifyType t change) := by
  refine .modify fun e h u => ?_
  show ((e.store.modifyType t change).type u).ListsTypes
  rcases Store.type_modifyType_cases e.store t change u with same | ⟨-, -, same⟩ <;> rw [same]
  · exact h u
  · exact lists _ (h u)

/-- A superclass is not among the supertypes that a type lists. -/
theorem keeps_listsTypes_setSuperclass (t : TypeId) (superclass : TypeBinding → Option TypeId) :
    Keeps ListsTypes (EnvironmentM.modifyType t fun b => { b with superclass := superclass b }) :=
  keeps_listsTypes_modifyType t fun _ lists => lists

/-- One more interface is listed. -/
theorem keeps_listsTypes_addInterface (t : TypeId) {up : Option TypeId} (found : up ≠ none)
    (superclass : TypeBinding → Option TypeId) :
    Keeps ListsTypes (EnvironmentM.modifyType t fun b =>
      { b with superclass := superclass b, interfaces := b.interfaces ++ [up] }) := by
  refine keeps_listsTypes_modifyType t fun b lists => ?_
  show none ∉ if b.isTypeVariable then b.bounds else b.interfaces ++ [up]
  unfold TypeBinding.ListsTypes at lists
  split
  · next isVariable =>
    rw [if_pos isVariable] at lists
    exact lists
  · next other =>
    rw [if_neg other] at lists
    simpa using ⟨lists, Ne.symm found⟩

section Complete

variable {c : Context} {n : Node} (elements : c.document.tree.HasElements)

include elements

/-- The type of a node of the tree, and that no supertype is missing after it was resolved. -/
theorem lists_resolveType {m : Node} (hm : m ∈ c.document.root.preorder) (place : Node) :
    Ensures ListsTypes (resolveType m place) fun t e => t ≠ none ∧ e.ListsTypes := by
  intro e h t e' run
  have finds : FindsType (resolveType m place) :=
    findsType_resolveType place fun x hx => elements x (Node.mem_preorder_trans hm hx)
  exact ⟨finds e trivial t e' run, (keeps_resolveType m place).ensures e h t e' run⟩

theorem lists_mapM_resolveType {ms : List Node} (hms : ∀ m ∈ ms, m ∈ c.document.root.preorder)
    (place : Node) : Ensures ListsTypes (ms.mapM fun m => resolveType m place)
      fun found e => none ∉ found ∧ e.ListsTypes := by
  induction ms with
  | nil => exact .pure fun e h => ⟨List.not_mem_nil, h⟩
  | cons m ms ih =>
    obtain ⟨here, further⟩ := List.forall_mem_cons.1 hms
    rw [List.mapM_cons]
    refine (lists_resolveType elements here place).bind fun t => .of_fact fun found => ?_
    refine (ih further).bind fun ts => .of_fact fun others => .pure fun e h => ⟨?_, h⟩
    rw [List.mem_cons, not_or]
    exact ⟨Ne.symm found, others⟩

variable (hn : n ∈ c.document.root.preorder)

include hn

theorem lists_completeTypeParameter (t : TypeId) :
    Ensures ListsTypes (completeTypeParameter t n) fun _ => ListsTypes := by
  unfold completeTypeParameter
  split
  · next bound found =>
    have member := Node.mem_preorder_of_mem_children hn (Node.mem_children_of_childOfKind found).1
    refine (lists_mapM_resolveType elements (fun m hm => ?_) n).bind fun bounds =>
      .of_fact fun found => (keeps_listsTypes_modifyType t fun b lists => ?_).ensures
    · exact Node.mem_preorder_of_mem_children member (List.mem_filter.1 hm).1
    · show none ∉ if b.isTypeVariable then bounds else b.interfaces
      unfold TypeBinding.ListsTypes at lists
      split
      · exact found
      · next other =>
        rw [if_neg other] at lists
        exact lists
  · exact .pure fun _ h => h

omit elements in
/-- The nodes of the listed interfaces are in the tree. -/
theorem mem_of_listedInterfaces {m : Node} {clause : Kind} (hm : m ∈ listedInterfaces n clause) :
    m ∈ c.document.root.preorder := by
  unfold listedInterfaces at hm
  split at hm
  · next list found =>
    obtain ⟨header, above, below⟩ := Option.bind_eq_some_iff.1 found
    have header := Node.mem_preorder_of_mem_children hn (Node.mem_children_of_childOfKind above).1
    have list := Node.mem_preorder_of_mem_children header (Node.mem_children_of_childOfKind below).1
    exact Node.mem_preorder_of_mem_children list (List.mem_filter.1 hm).1
  · cases hm

theorem lists_completeNamedType (t : TypeId) :
    Ensures ListsTypes (completeNamedType t n) fun _ => ListsTypes := by
  have supertypes : ∀ superclass : Option TypeId, Ensures ListsTypes (do
      EnvironmentM.modifyType t fun b => { b with superclass := superclass }
      (listedInterfaces n .superInterfaces ++ listedInterfaces n .extendsInterfaces).forM
        fun each => do
          let up ← resolveType each n
          EnvironmentM.modifyType t fun b => { b with interfaces := b.interfaces ++ [up] })
      fun _ => ListsTypes := by
    intro superclass
    refine (keeps_listsTypes_setSuperclass t fun _ => superclass).ensures.bind fun _ =>
      .forM fun each heach => ?_
    have member : each ∈ c.document.root.preorder :=
      (List.mem_append.1 heach).elim (mem_of_listedInterfaces hn) (mem_of_listedInterfaces hn)
    exact (lists_resolveType elements member n).bind fun up => .of_fact fun found =>
      (keeps_listsTypes_addInterface t found TypeBinding.superclass).ensures
  unfold completeNamedType
  dsimp only
  split
  · exact (keeps_resolveType _ n).ensures.bind supertypes
  · exact (keeps_read _).ensures.bind fun s => (keeps_impliedSuperclass _).ensures.bind supertypes

end Complete

theorem keeps_listsTypes_completeAnonymous (t : TypeId) (body : Node) :
    Keeps ListsTypes (completeAnonymous t body) := by
  refine (Keeps.ofExcept _).bind fun creation =>
    .ite (keeps_listsTypes_setSuperclass t TypeBinding.declaringClass) ?_
  refine (keeps_resolveType? _ _).bind fun up => ?_
  cases up with
  | none =>
    exact keeps_objectType.bind fun object => keeps_listsTypes_setSuperclass t fun _ => some object
  | some up =>
    refine (keeps_read store).bind fun s => .ite (keeps_objectType.bind fun object => ?_)
      (keeps_listsTypes_setSuperclass t fun _ => some up)
    exact keeps_listsTypes_addInterface t (Option.some_ne_none up) fun _ => some object

theorem keeps_listsTypes_completeMethod (m : MethodId) (n : Node) :
    Keeps ListsTypes (completeMethod m n) := by
  have change : ∀ f, Keeps ListsTypes (EnvironmentM.modifyMethod m f) :=
    fun f => .modify fun _ h => h
  have parameter : ∀ each, Keeps ListsTypes (completeParameter m each) := fun each =>
    (keeps_variableType each).bind fun _ => (keeps_read document).bind fun _ => change _
  refine (keeps_read store).bind fun s =>
    .ite ((Keeps.map some (keeps_primitiveType "void")).bind fun returnType => ?_)
      ((keeps_resolveType? _ _).bind fun returnType => ?_)
  -- both kinds of method store their return type and go on with the parameters
  all_goals
    refine (change _).bind fun _ => ?_
    split
    · exact .forM fun each _ => parameter each
    · exact .pure _

theorem lists_complete {c : Context} (elements : c.document.tree.HasElements) {b : BindingId}
    {n : Node} (member : ∀ t, b = .type t → n ∈ c.document.root.preorder) :
    Ensures ListsTypes (complete b n) fun _ => ListsTypes := by
  cases b with
  | type t =>
    have hn := member t rfl
    refine (keeps_read store).ensures.bind fun s => .ite (fun _ => ?_) fun _ => .ite (fun _ => ?_)
      fun _ => ?_
    · exact lists_completeTypeParameter elements hn t
    · exact (keeps_listsTypes_completeAnonymous t n).ensures
    · exact lists_completeNamedType elements hn t
  | method m => exact (keeps_listsTypes_completeMethod m n).ensures
  | «variable» v =>
    exact (keeps_variableType n).ensures.bind fun type => .modify fun _ h => h

/-! ## Built environments -/

/-- No type of a built environment lists a supertype that is missing. -/
theorem build_listsTypes {c : Context} {e : Environment} (built : build c = .ok e)
    (shape : c.document.tree.HasLeafNames) (elements : c.document.tree.HasElements) :
    e.ListsTypes := by
  obtain ⟨d, declares, completes⟩ := build_eq_ok built
  have reads := declared_readFrom declares shape
  have start : d.toEnvironment.ListsTypes := by
    intro t
    show none ∉ if (d.store.type t).isTypeVariable then (d.store.type t).bounds
      else (d.store.type t).interfaces
    rw [(reads.headers t).bounds, (reads.headers t).interfaces, ite_self]
    exact List.not_mem_nil
  refine Ensures.forM (fun each heach => lists_complete elements fun t isType => ?_)
    d.toEnvironment start _ _ completes
  exact reads.pending t each.2 (by rw [← isType]; exact heach)

/-! ## Environments that have grown -/

/-- The second environment has grown from the first one, and no type that was made on the way has
supertypes of its own. -/
structure GrowsByLeaves (e e' : Environment) : Prop extends e.Extends e' where
  leaves : ∀ t : TypeId, e.store.types.size ≤ t.index → (e'.store.type t).IsLeaf

namespace GrowsByLeaves

variable {e₀ e : Environment}

theorem refl (e : Environment) : e.GrowsByLeaves e where
  toExtends := .refl e
  leaves t outside := by
    rw [Store.type_of_size_le outside]
    exact TypeBinding.isLeaf_default

theorem leaf_addType {b : TypeBinding} (h : e₀.GrowsByLeaves e) (leaf : b.IsLeaf) (t : TypeId)
    (new : e₀.store.types.size ≤ t.index) : ((e.store.addType b).2.type t).IsLeaf := by
  rcases Store.type_addType_cases e.store b t with ⟨-, same⟩ | ⟨-, same⟩ | ⟨-, same⟩ <;> rw [same]
  · exact h.leaves t new
  · exact leaf
  · exact TypeBinding.isLeaf_default

instance : LastsEntries e₀.GrowsByLeaves where
  addType h hb leaf := { LastsEntries.addType h.toExtends hb leaf with leaves := h.leaf_addType leaf }
  recover h fresh := {
    LastsEntries.recover h.toExtends fresh with leaves := h.leaf_addType (TypeBinding.isLeaf_ofName _) }
  derive h fresh hb leaf := {
    LastsEntries.derive h.toExtends fresh hb leaf with leaves := h.leaf_addType leaf }

/-- Growth does not bring in a type that lists a missing supertype. -/
theorem listsTypes (h : e₀.GrowsByLeaves e) (lists : e₀.ListsTypes) : e.ListsTypes := by
  intro t
  by_cases old : t.index < e₀.store.types.size
  · rw [h.store.kept t old]
    exact lists t
  · exact (h.leaves t (Nat.le_of_not_lt old)).listsTypes

end GrowsByLeaves

end Environment

end JavaScope
