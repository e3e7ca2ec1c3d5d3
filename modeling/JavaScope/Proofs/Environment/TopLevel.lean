import JavaScope.Proofs.Environment.Owners

/-!
# The list of top-level types

An environment lists the types that the first pass declares while no type encloses it. That is where
the types of a file stand, but code can stand outside of every type as well, and its types are listed
with the others, whether they are local or not. So the list holds the types directly below the root
exactly if there are no other types outside of every type.
-/

namespace JavaScope

/-- A named type is declared outside of every other type. -/
def Site.isOutermost (s : Site) : Bool :=
  match s.role with
  | .type _ => s.owner.isNone
  | _ => false

theorem Site.isOutermost_iff {s : Site} :
    s.isOutermost = true ↔ (∃ isLocal, s.role = .type isLocal) ∧ s.owner = none := by
  unfold isOutermost
  cases s.role <;> simp

/-- The store has the type that is declared at a site. -/
structure Store.TypeOf (store : Store) (s : Site) (t : TypeId) : Prop where
  has : store.Has (.type t)
  role : (store.profile (.type t)).role = s.role
  node : (store.type t).node = some s.node

theorem Store.typeOf_addType (store : Store) {s : Site} {b : TypeBinding}
    (role : b.profile.role = s.role) (node : b.node = some s.node) :
    (store.addType b).2.TypeOf s (store.addType b).1 where
  has := by
    show store.types.size < (store.addType b).2.types.size
    rw [size_addType]
    exact Nat.lt_succ_self _
  role := by
    show ((store.addType b).2.type (store.addType b).1).profile.role = s.role
    rw [type_addType_self, role]
  node := by rw [type_addType_self, node]

/-- A type without what it lists. -/
def TypeBinding.unlisted (b : TypeBinding) : TypeBinding :=
  { b with declaredFields := [], declaredMethods := [], declaredTypes := [], typeParameters := [] }

namespace Draft

/-! ## What goes on in a draft -/

/-- The second draft lists the same top-level types and derived types, and has what the first one
has. -/
structure GoesOn (d d' : Draft) : Prop where
  types : d'.types = d.types
  derived : d'.derived = d.derived
  has : ∀ b, d.store.Has b → d'.store.Has b
  kept : ∀ b, d.store.Has b → d'.store.profile b = d.store.profile b

namespace GoesOn

variable {d d' d'' : Draft}

theorem refl (d : Draft) : d.GoesOn d :=
  ⟨rfl, rfl, fun _ => id, fun _ _ => rfl⟩

theorem adds {b : BindingId} {linked : Option TypeId} (h : d.GoesOn d') (types : d''.types = d'.types)
    (derived : d''.derived = d'.derived) (adds : d'.store.Adds b linked d''.store) :
    d.GoesOn d'' where
  types := types.trans h.types
  derived := derived.trans h.derived
  has b' has := (adds.has b').2 (.inl (h.has b' has))
  kept b' has := by
    have older : b' ≠ b := fun same => adds.fresh (same ▸ h.has b' has)
    rw [adds.kept b' older, h.kept b' has]

theorem same (h : d.GoesOn d') (types : d''.types = d'.types) (derived : d''.derived = d'.derived)
    (has : ∀ b, d''.store.Has b ↔ d'.store.Has b)
    (profile : ∀ b, d''.store.profile b = d'.store.profile b) : d.GoesOn d'' where
  types := types.trans h.types
  derived := derived.trans h.derived
  has b hb := (has b).2 (h.has b hb)
  kept b hb := (profile b).trans (h.kept b hb)

theorem typeOf (h : d.GoesOn d') {s : Site} {t : TypeId} (declared : d.store.TypeOf s t) :
    d'.store.TypeOf s t where
  has := h.has _ declared.has
  role := by rw [h.kept _ declared.has, declared.role]
  node := (congrArg Profile.node (h.kept _ declared.has)).trans declared.node

end GoesOn

/-- A property of drafts that every declaration keeps, apart from that of a named type: it makes no
other types than type parameters and those of code, and no type that is there changes but in what it
lists. -/
class Calm (I : Draft → Prop) : Prop where
  register : ∀ n b, Keeps I (register n b)
  postpone : ∀ b n, Keeps I (postpone b n)
  addType : ∀ b : TypeBinding, (∀ k, b.listed k = []) → (b.isLocal || b.isTypeVariable) = true →
    Keeps I (addType b)
  addVariable : ∀ b, Keeps I (addVariable b)
  addMethod : ∀ b, Keeps I (addMethod b)
  modifyOwner : ∀ owner (change : TypeBinding → TypeBinding),
    (∀ o, (change o).unlisted = o.unlisted) → Keeps I (modifyOwner owner change)
  modifyMethod : ∀ m (change : MethodBinding → MethodBinding),
    (∀ o, (change o).profile = o.profile) →
      Keeps I (modify fun d => d.withStore (d.store.modifyMethod m change))

instance (d : Draft) : Calm d.GoesOn where
  register _ _ := .modify fun _ h => h.same rfl rfl (fun _ => .rfl) fun _ => rfl
  postpone _ _ := .modify fun _ h => h.same rfl rfl (fun _ => .rfl) fun _ => rfl
  addType _ unlisted _ := .modifyGet fun _ h => h.adds rfl rfl (Store.adds_type unlisted)
  addVariable b := .modifyGet fun _ h => h.adds rfl rfl (Store.adds_variable b)
  addMethod b := .modifyGet fun _ h => h.adds rfl rfl (Store.adds_method b)
  modifyOwner owner change same := by
    have profile : ∀ o, (change o).profile = o.profile := fun o =>
      (congrArg TypeBinding.profile (same o) :)
    cases owner with
    | none => exact .pure _
    | some t =>
      exact .modify fun _ h => h.same rfl rfl (Store.has_modifyType t change)
        (Store.profile_modifyType profile)
  modifyMethod m change profile := by
    refine .modify fun _ h => h.same rfl rfl (fun b => ?_) (Store.profile_modifyMethod profile)
    cases b <;> simp [Store.Has, withStore, Store.modifyMethod]

/-- The action declares no named type. -/
abbrev Quiet {α : Type} (action : DeclareM α) : Prop :=
  ∀ (I : Draft → Prop) [Calm I], Keeps I action

section Quiet

variable {n : Node}

theorem quiet_ownerIsInterface (owner : Option TypeId) : Quiet (ownerIsInterface owner) :=
  fun _ _ => Keeps.get.bind fun _ => .pure _

theorem quiet_declareAnonymous (n : Node) (around : Surroundings) :
    Quiet (declareAnonymous n around) := fun _ _ =>
  Keeps.get.bind fun _ => (Calm.addType _ (listed_empty_type _ rfl rfl rfl) rfl).bind fun _ =>
    (Calm.register _ _).bind fun _ => (Calm.postpone _ _).bind fun _ => .pure _

theorem quiet_declareTypeParameter (n : Node) (owner : Option TypeId) (method : Option MethodId) :
    Quiet (declareTypeParameter n owner method) := by
  intro I _
  refine Keeps.get.bind fun _ =>
    (Calm.addType _ (listed_empty_type _ rfl rfl rfl) rfl).bind fun t => ?_
  have file : Keeps I (do register n (.type t); postpone (.type t) n) :=
    (Calm.register _ _).bind fun _ => Calm.postpone _ _
  cases method with
  | some m => exact (Calm.modifyMethod m _ fun _ => by rfl).bind fun _ => file
  | none => exact (Calm.modifyOwner owner _ fun _ => by rfl).bind fun _ => file

theorem quiet_declareTypeParameters (n : Node) (owner : Option TypeId) (method : Option MethodId) :
    Quiet (declareTypeParameters n owner method) := by
  intro I _
  unfold declareTypeParameters
  split
  · exact .forM fun each _ => quiet_declareTypeParameter each owner method I
  · exact .pure _

theorem quiet_declareMethod (n : Node) (owner : Option TypeId) : Quiet (declareMethod n owner) :=
  fun I _ => Keeps.get.bind fun _ => (quiet_ownerIsInterface owner I).bind fun _ =>
    (Calm.addMethod _).bind fun _ => (Calm.modifyOwner owner _ fun _ => by rfl).bind fun _ =>
      (Calm.register _ _).bind fun _ => (Calm.postpone _ _).bind fun _ => .pure _

theorem quiet_declareMember (named n : Node) (owner : Option TypeId) (b : VariableBinding) :
    Quiet (declareMember named n owner b) := by
  intro I _
  refine Keeps.get.bind fun _ => Keeps.bind ?_ fun _ => (Calm.addVariable _).bind fun _ => ?_
  · exact Keeps.get.bind fun _ => (Keeps.ofExcept _).bind fun _ => .pure _
  · exact (Calm.modifyOwner owner _ fun _ => by rfl).bind fun _ => (Keeps.ofExcept _).bind fun _ =>
      (Calm.register _ _).bind fun _ => .pure _

theorem quiet_declareField (declaration n : Node) (owner : Option TypeId) :
    Quiet (declareField declaration n owner) := fun I _ =>
  (quiet_ownerIsInterface owner I).bind fun _ => (quiet_declareMember _ _ owner _ I).bind fun _ =>
    Calm.postpone _ _

theorem quiet_declareEnumConstant (n : Node) (owner : Option TypeId) :
    Quiet (declareEnumConstant n owner) := fun I _ =>
  (quiet_declareMember _ _ _ _ I).bind fun _ => .pure _

theorem quiet_declareRecordComponents (n : Node) (owner : TypeId) :
    Quiet (declareRecordComponents n owner) := by
  intro I _
  unfold declareRecordComponents
  split
  · exact .forM fun _ _ => (quiet_declareMember _ _ _ _ I).bind fun _ => Calm.postpone _ _
  · exact .pure _

theorem quiet_declareVariable (n : Node) (method : Option MethodId) (isParameter : Bool) :
    Quiet (declareVariable n method isParameter) := by
  intro I _
  unfold declareVariable
  split
  · exact .pure _
  · exact Keeps.get.bind fun _ => (Calm.addVariable _).bind fun _ =>
      (Calm.register _ _).bind fun _ => Calm.postpone _ _

theorem quiet_declareInMethod (n : Node) (method : Option MethodId) :
    Quiet (declareInMethod n method) := by
  intro I _
  have named := fun isParameter => quiet_declareVariable n method isParameter I
  unfold declareInMethod
  split
  · exact .ite (named false) (.pure _)
  iterate 3 exact named false
  · exact .ite (named true) (.pure _)
  · exact .forM fun _ _ => Keeps.get.bind fun _ => (Calm.addVariable _).bind fun _ =>
      Calm.register _ _
  · exact .pure _

end Quiet

/-! ## Outermost types -/

/-- The draft lists the types of the outermost ones among some sites, and derives none from others
yet. -/
structure Lists (sites : List Site) (d : Draft) : Prop where
  types : List.Forall₂ d.store.TypeOf (sites.filter (·.isOutermost)) d.types
  derived : d.derived = []

theorem Lists.goesOn {sites : List Site} {d d' : Draft} (h : d.Lists sites) (on : d.GoesOn d') :
    d'.Lists sites where
  types := by
    rw [on.types]
    exact h.types.imp fun _ _ declared => on.typeOf declared
  derived := on.derived.trans h.derived

theorem lists_congr {sites sites' : List Site}
    (same : sites.filter (·.isOutermost) = sites'.filter (·.isOutermost)) (d : Draft) :
    d.Lists sites ↔ d.Lists sites' :=
  ⟨fun h => ⟨same ▸ h.types, h.derived⟩, fun h => ⟨same ▸ h.types, h.derived⟩⟩

/-- After whatever sites, the action lists the outermost ones of these. -/
def ListsOf (new : List Site) (action : DeclareM Unit) : Prop :=
  ∀ sites, Ensures (Lists sites) action fun _ => Lists (sites ++ new)

variable {n : Node}

theorem ensures_of_quiet {α : Type} {action : DeclareM α} {P : Draft → Prop}
    (quiet : Quiet action) (stable : ∀ d d', P d → d.GoesOn d' → P d') :
    Ensures P action fun _ => P := by
  intro d hd x d' run
  have on := quiet d.GoesOn d (.refl d)
  rw [run] at on
  exact stable d d' hd on

namespace ListsOf

variable {xs ys : List Site} {a b : DeclareM Unit}

protected theorem pure : ListsOf [] (pure ()) := fun sites => by
  rw [List.append_nil]
  exact .pure fun _ h => h

protected theorem bind (ha : ListsOf xs a) (hb : ListsOf ys b) :
    ListsOf (xs ++ ys) (a >>= fun _ => b) := fun sites => by
  rw [← List.append_assoc]
  exact (ha sites).bind fun _ => hb (sites ++ xs)

protected theorem ite (c : Prop) [Decidable c] (ha : c → ListsOf xs a) (hb : ¬c → ListsOf ys b) :
    ListsOf (if c then xs else ys) (if c then a else b) := by
  split
  · next hc => exact ha hc
  · next hc => exact hb hc

theorem composes : Composes ListsOf :=
  ⟨.pure, .bind⟩

/-- What lists no type, where no site is an outermost one. -/
theorem of_quiet {action : DeclareM Unit} (quiet : Quiet action)
    (none : ∀ s ∈ xs, s.isOutermost = false) : ListsOf xs action := by
  intro sites
  have same : ∀ d : Draft, d.Lists (sites ++ xs) ↔ d.Lists sites := lists_congr <| by
    have empty : xs.filter (·.isOutermost) = [] :=
      List.filter_eq_nil_iff.2 fun s hs => by simp [none s hs]
    rw [List.filter_append, empty, List.append_nil]
  refine (ensures_of_quiet quiet fun d d' h on => ?_).weaken (fun _ h => h) fun _ d h => (same d).2 h
  exact Lists.goesOn h on

/-- What declares something for the rest of an action, and the rest. -/
theorem declare {α : Type} {s : Site} {action : DeclareM α} {rest : α → DeclareM Unit}
    (first : ∀ sites, Ensures (Lists sites) action fun _ => Lists (sites ++ [s]))
    (later : ∀ x, ListsOf xs (rest x)) : ListsOf (s :: xs) (action >>= rest) := fun sites => by
  rw [List.append_cons]
  exact (first sites).bind fun x => later x (sites ++ [s])

end ListsOf

/-! ## Declarations -/

theorem lists_concat_of_inner {sites : List Site} {s : Site} (inner : s.isOutermost = false)
    (d : Draft) : d.Lists (sites ++ [s]) ↔ d.Lists sites := by
  refine lists_congr ?_ d
  rw [List.filter_append, List.filter_singleton, inner]
  simp

/-- A quiet declaration of what is no outermost type. -/
theorem lists_of_quiet {α : Type} {action : DeclareM α} {s : Site} (quiet : Quiet action)
    (inner : s.isOutermost = false) (sites : List Site) :
    Ensures (Lists sites) action fun _ => Lists (sites ++ [s]) := by
  refine (ensures_of_quiet quiet fun d d' h on => ?_).weaken (fun _ h => h) fun _ d h => ?_
  · exact Lists.goesOn h on
  · exact (lists_concat_of_inner inner d).2 h

theorem lists_declareType {around : Surroundings} {m : Option Node}
    (owner : around.owner.isNone = m.isNone) (sites : List Site) :
    Ensures (Lists sites) (declareType n around) fun _ =>
      Lists (sites ++ [⟨.type around.inBody, n, n, m, none⟩]) := by
  have notParameter : (typeKindOf n.kind == .typeParameter) = false := by
    cases n.kind <;> rfl
  let s : Site := ⟨.type around.inBody, n, n, m, none⟩
  let Made (t : TypeId) (d : Draft) : Prop := d.Lists sites ∧ d.store.TypeOf s t
  have made : ∀ t d d', Made t d → d.GoesOn d' → Made t d' :=
    fun t d d' h on => ⟨h.1.goesOn on, on.typeOf h.2⟩
  have file : ∀ t, Ensures (Lists (sites ++ [s])) (do
      register n (.type t)
      postpone (.type t) n
      return t) fun _ => Lists (sites ++ [s]) := by
    intro t
    refine ensures_of_quiet (fun I _ => ?_) fun d d' h on => h.goesOn on
    exact (Calm.register _ _).bind fun _ => (Calm.postpone _ _).bind fun _ => .pure _
  have tail : ∀ t, Ensures (Made t) (if around.owner.isNone = true then
      (modify fun d : Draft => { d with types := d.types ++ [t] }) >>= fun _ => do
        register n (.type t)
        postpone (.type t) n
        return t
      else do
        register n (.type t)
        postpone (.type t) n
        return t) fun _ => Lists (sites ++ [s]) := by
    intro t
    refine .ite (fun top => ?_) fun enclosed => ?_
    · refine Ensures.bind (.modify fun d ⟨lists, declares⟩ => ?_) fun _ => file t
      have outermost : s.isOutermost = true := owner.symm.trans top
      refine ⟨?_, lists.derived⟩
      rw [List.filter_append, List.filter_singleton, outermost]
      exact List.rel_append lists.types (.cons declares .nil)
    · have inner : s.isOutermost = false := by
        rw [← Bool.not_eq_true]
        exact fun outermost => enclosed (owner.trans outermost)
      exact (file t).weaken (fun d h => (lists_concat_of_inner inner d).2 h.1) fun _ _ h => h
  refine (Ensures.get fun _ h => h).bind fun d => (ensures_of_quiet (quiet_ownerIsInterface _)
    fun d d' h on => Lists.goesOn h on).bind fun _ => ?_
  refine Ensures.bind (Q := Made) (.modifyGet fun d h => ⟨?_, ?_⟩) fun t => ?_
  · exact h.goesOn ((GoesOn.refl d).adds rfl rfl (Store.adds_type (listed_empty_type _ rfl rfl rfl)))
  · refine Store.typeOf_addType d.store ?_ rfl
    simp [TypeBinding.profile, TypeBinding.isTypeVariable, notParameter, s]
  dsimp only
  refine .ite (fun isMember => ?_) fun isLocal => ?_
  · refine Ensures.bind (ensures_of_quiet (fun _ _ => ?_) (made t)) fun _ => tail t
    exact Calm.modifyOwner around.owner _ fun _ => rfl
  · exact tail t

/-! ## The pass -/

theorem isOutermost_of_mem_named {role : Role} {owner method : Option Node}
    (variable' : role.kind = .variable) :
    ∀ s ∈ Plan.named role n owner method, s.isOutermost = false := by
  intro s hs
  rw [Site.isOutermost, (Node.of_mem_named hs).1]
  cases role <;> first | rfl | cases variable'

theorem isOutermost_of_mem_typeParameters {owner method : Option Node} :
    ∀ s ∈ Plan.typeParameters n owner method, s.isOutermost = false := by
  intro s hs
  rw [Site.isOutermost, Node.role_of_mem_typeParameters hs]

theorem isOutermost_of_mem_recordComponents :
    ∀ s ∈ Plan.recordComponents n, s.isOutermost = false := by
  intro s hs
  rw [Site.isOutermost, Node.role_of_mem_recordComponents hs]

theorem isOutermost_of_mem_inMethod {method : Option Node} :
    ∀ s ∈ Plan.inMethod n method, s.isOutermost = false := by
  intro s hs
  rw [Site.isOutermost, Node.role_of_mem_inMethod hs]

/-- What encloses a node in the plan is there in the pass. -/
structure Alike (e : Enclosure) (around : Surroundings) : Prop where
  owner : around.owner.isNone = e.owner.isNone
  inBody : around.inBody = e.inBody

/-- The pass over the nodes below a node lists the outermost types there. -/
def ListsInside (n : Node) : Prop :=
  ∀ e around, Alike e around → ListsOf (n.sitesInside e) ((n.fold passStep).inside around)

theorem listsInside_of_children
    (ih : ∀ c ∈ n.children, ∀ e around, Alike e around →
      ListsOf (c.sites e) ((c.fold passStep).here around)) : ListsInside n :=
  fun e around alike => ListsOf.composes.inside fun c hc => ih c hc e around alike

/-- The pass over a node and the nodes below it lists the outermost types there, in their order. -/
theorem lists_sites (n : Node) : ∀ e around, Alike e around →
    ListsOf (n.sites e) ((n.fold passStep).here around) := by
  refine Node.induction_inside (fun n => listsInside_of_children) (fun n here below => ?_) n
  have self : ∀ c ∈ n.children, ListsInside c := fun c hc => below c hc c (Node.mem_preorder_self c)
  rw [ListsInside, Node.fold_eq] at here
  have parameters : ∀ owner method m o, ListsOf (Plan.typeParameters n m o)
      (declareTypeParameters n owner method) := fun owner method m o =>
    .of_quiet (quiet_declareTypeParameters n owner method) isOutermost_of_mem_typeParameters
  intro e around alike
  rw [Node.sites_eq, Node.fold_eq]
  refine .ite _ (fun _ => ?_) fun _ => .ite _ (fun _ => ?_) fun _ => .ite _ (fun _ => ?_) fun _ =>
    .ite _ (fun _ => ?_) fun _ => .ite _ (fun _ => ?_) fun _ => .ite _ (fun _ => ?_) fun _ => ?_
  · refine .declare (fun sites => ?_) fun t => (parameters _ _ _ _).bind ?_
    · rw [← alike.inBody]
      exact lists_declareType alike.owner sites
    have body : ListsOf (n.sitesOfField .body ⟨some n, none, false⟩) (insideField
        (n.children.map fun c => (c, c.fold passStep)) .body ⟨some t, none, false⟩) :=
      ListsOf.composes.insideField fun c hc => self c hc _ _ ⟨rfl, rfl⟩
    by_cases isRecord : (n.kind == .recordDeclaration) = true
    · simp only [isRecord, if_true]
      exact (ListsOf.of_quiet (quiet_declareRecordComponents n t)
        isOutermost_of_mem_recordComponents).bind body
    · simp only [isRecord]
      exact body
  · refine .declare (lists_of_quiet (quiet_declareAnonymous n around) rfl) fun t => ?_
    exact here _ _ ⟨rfl, rfl⟩
  · refine .declare (lists_of_quiet (quiet_declareMethod n around.owner) rfl) fun m =>
      (parameters _ _ _ _).bind ?_
    have inMethod : Alike ⟨e.owner, some n, true⟩ ⟨around.owner, some m, true⟩ :=
      ⟨alike.owner, rfl⟩
    have parameter : ∀ each, ListsOf (Plan.named .localVariable each none (some n))
        (declareVariable each (some m) true) := fun each =>
      .of_quiet (quiet_declareVariable each (some m) true) (isOutermost_of_mem_named rfl)
    refine (ListsOf.composes.declareParameters parameter fun c hc each heach => ?_).bind ?_
    · exact below c hc each (Node.mem_preorder_of_child heach (Node.mem_preorder_self each)) _ _
        inMethod
    · exact ListsOf.composes.insideField fun c hc => self c hc _ _ inMethod
  · refine ListsOf.composes.declarators fun c hc => ListsOf.bind (.of_quiet
      (quiet_declareField n c around.owner) (isOutermost_of_mem_named rfl)) ?_
    exact self c hc _ _ ⟨alike.owner, rfl⟩
  · exact ListsOf.bind (.of_quiet (quiet_declareEnumConstant n around.owner)
      (isOutermost_of_mem_named rfl)) (here _ _ ⟨alike.owner, rfl⟩)
  · exact here _ _ ⟨alike.owner, rfl⟩
  · exact (ListsOf.of_quiet (quiet_declareInMethod n around.method)
      isOutermost_of_mem_inMethod).bind (here _ _ alike)

end Draft

/-! ## Outermost types in a tree -/

/-- An outermost type stands where no type encloses it, in the tree of a node. -/
structure Site.IsOutermostIn (s : Site) (e : Enclosure) (n : Node) : Prop where
  owner : e.owner = none
  member : s.node ∈ n.preorder
  isType : s.node.kind.isTypeDeclaration = true

namespace Node

variable {n m : Node} {s : Site} {e e' : Enclosure}

/-- The only outermost type that a node brings is the node itself. -/
theorem Brings.eq_of_isOutermost (brought : n.Brings e s) (outermost : s.isOutermost = true) :
    e.owner = none ∧ n.kind.isTypeDeclaration = true ∧ s = ⟨.type e.inBody, n, n, none, none⟩ := by
  cases brought with
  | type isType =>
    have owner : e.owner = none := (Site.isOutermost_iff.1 outermost).2
    exact ⟨owner, isType, by rw [owner]⟩
  | anonymousClass | method => cases outermost
  | typeParameter h => simp [Draft.isOutermost_of_mem_typeParameters s h] at outermost
  | recordComponent _ h => simp [Draft.isOutermost_of_mem_recordComponents s h] at outermost
  | parameter _ _ _ _ h | field _ _ _ h | constant _ h =>
    simp [Draft.isOutermost_of_mem_named rfl s h] at outermost
  | code _ h => simp [Draft.isOutermost_of_mem_inMethod s h] at outermost

/-- No type encloses what a node opens only if none encloses the node and the node is no type. -/
theorem Opens.owner_eq_none (opens : n.Opens e m e') (owner : e'.owner = none) :
    e.owner = none ∧ n.kind.isTypeDeclaration = false := by
  cases opens with
  | typeBody | anonymousBody => cases owner
  | parameter isMethod | methodBody isMethod =>
    refine ⟨owner, ?_⟩
    revert isMethod
    cases n.kind <;> simp [Kind.isTypeDeclaration, Kind.isMethodDeclaration]
  | declarator transparent | constant transparent | initializer transparent | code transparent =>
    exact ⟨owner, transparent.notType⟩

/-- An outermost type that the first pass meets at a type is this type; the others stand where no type
encloses them. -/
theorem isOutermostIn_of_mem_sites (h : s ∈ n.sites e) (outermost : s.isOutermost = true) :
    s.IsOutermostIn e n ∧
      (n.kind.isTypeDeclaration = true → s = ⟨.type e.inBody, n, n, none, none⟩) := by
  refine sites_induction (P := fun n e s => s.isOutermost = true → s.IsOutermostIn e n ∧
    (n.kind.isTypeDeclaration = true → s = ⟨.type e.inBody, n, n, none, none⟩)) ?_ ?_ h outermost
  · intro n e s brought outermost
    obtain ⟨owner, isType, rfl⟩ := brought.eq_of_isOutermost outermost
    exact ⟨⟨owner, mem_preorder_self n, isType⟩, fun _ => rfl⟩
  · intro n e m e' c s opens hc ih outermost
    have found := (ih outermost).1
    obtain ⟨owner, notType⟩ := opens.owner_eq_none found.owner
    have below := mem_preorder_of_mem_children opens.mem_preorder hc
    refine ⟨⟨owner, mem_preorder_trans below found.member, found.isType⟩, fun isType => ?_⟩
    rw [notType] at isType
    cases isType

/-- At a type outside of every type there is one outermost type. -/
theorem filter_sites_of_isType (isType : n.kind.isTypeDeclaration = true) (inBody : Bool)
    (method : Option Node) :
    (n.sites ⟨none, method, inBody⟩).filter (·.isOutermost) =
      [⟨.type inBody, n, n, none, none⟩] := by
  rw [sites_eq, if_pos isType, List.filter_cons_of_pos rfl]
  have owned : ∀ s ∈ n.sitesOfField .body ⟨some n, none, false⟩, s.isOutermost = false := by
    intro s hs
    obtain ⟨c, -, hs⟩ := mem_sitesOfField hs
    rw [sitesInside_eq] at hs
    obtain ⟨member, -, hs⟩ := List.mem_flatMap.1 hs
    by_contra outermost
    cases (isOutermostIn_of_mem_sites hs (by simpa using outermost)).1.owner
  refine congrArg (List.cons _) (List.filter_eq_nil_iff.2 fun s hs => ?_)
  simp only [List.mem_append] at hs
  rcases hs with hs | hs | hs
  · simp [Draft.isOutermost_of_mem_typeParameters s hs]
  · split at hs
    · simp [Draft.isOutermost_of_mem_recordComponents s hs]
    · cases hs
  · simp [owned s hs]

end Node

namespace Environment

variable {c : Context} {e : Environment}

/-- The outermost types of a file. -/
def outermostSites (c : Context) : List Site :=
  (sitesOf c).filter (·.isOutermost)

/-- The types that stand directly below the root of a file. -/
def topLevelNodes (c : Context) : List Node :=
  c.document.root.namedChildren.filter (·.kind.isTypeDeclaration)

theorem outermostSites_eq (c : Context) :
    outermostSites c = c.document.root.namedChildren.flatMap fun child =>
      (child.sites ⟨none, none, false⟩).filter (·.isOutermost) := by
  rw [outermostSites, sitesOf, Node.sitesInside_eq, List.filter_flatMap]

/-- A type that stands directly below the root is an outermost one, and in no body. -/
theorem eq_of_mem_children {s : Site} (hs : s ∈ outermostSites c)
    (top : s.node ∈ c.document.root.children) : s = ⟨.type false, s.node, s.node, none, none⟩ := by
  rw [outermostSites_eq] at hs
  obtain ⟨child, hchild, hs⟩ := List.mem_flatMap.1 hs
  obtain ⟨hs, outermost⟩ := List.mem_filter.1 hs
  obtain ⟨found, head⟩ := Node.isOutermostIn_of_mem_sites hs outermost
  -- the node is below this child only, so it is the child
  have same : s.node = child := Node.eq_of_mem_preorder top (List.mem_filter.1 hchild).1
    (Node.mem_preorder_self s.node) found.member
  rw [← same] at head
  exact head found.isType

/-- The outermost types are those directly below the root if no other node declares one. -/
theorem map_node_outermostSites
    (top : ∀ s ∈ outermostSites c, s.node ∈ c.document.root.children) :
    (outermostSites c).map (·.node) = topLevelNodes c := by
  have named : ∀ child ∈ c.document.root.namedChildren, child ∈ c.document.root.children :=
    fun child hchild => (List.mem_filter.1 hchild).1
  rw [outermostSites_eq] at top ⊢
  rw [topLevelNodes]
  generalize c.document.root.namedChildren = children at top named
  induction children with
  | nil => rfl
  | cons child rest ih =>
    have below := named child List.mem_cons_self
    rw [List.flatMap_cons, List.map_append, ih (fun s hs => top s ?_) fun child' hchild' =>
      named child' (List.mem_cons_of_mem child hchild')]
    · by_cases isType : child.kind.isTypeDeclaration = true
      · rw [Node.filter_sites_of_isType isType]
        simp [isType]
      · have none : (child.sites ⟨none, none, false⟩).filter (·.isOutermost) = [] := by
          rw [List.eq_nil_iff_forall_not_mem]
          intro s hs
          have member := top s (by
            rw [List.flatMap_cons]
            exact List.mem_append_left _ hs)
          obtain ⟨hs, outermost⟩ := List.mem_filter.1 hs
          have found := (Node.isOutermostIn_of_mem_sites hs outermost).1
          have same := Node.eq_of_mem_preorder member below (Node.mem_preorder_self s.node)
            found.member
          exact isType (same ▸ found.isType)
        rw [none]
        simp [isType]
    · rw [List.flatMap_cons]
      exact List.mem_append_right _ hs

/-! ## The list of a built environment -/

/-- The first pass lists the outermost types, and derives none. -/
theorem declared_lists {d : Draft} (h : declared c = .ok d) : d.Lists (sitesOf c) := by
  have blank : (readHeader (empty c)).types = [] ∧ (readHeader (empty c)).derived = [] := by
    have step : ∀ e part, (readHeaderPart e part).types = e.types ∧
        (readHeaderPart e part).derived = e.derived := by
      intro e part
      unfold readHeaderPart
      split <;> exact ⟨rfl, rfl⟩
    refine List.foldlRecOn (motive := fun e : Environment => e.types = [] ∧ e.derived = []) _ _
      (⟨rfl, rfl⟩ : (empty c).types = [] ∧ (empty c).derived = []) fun e h part _ => ?_
    exact ⟨(step e part).1.trans h.1, (step e part).2.trans h.2⟩
  have start : Draft.Lists [] { readHeader (empty c) with pending := [] } := by
    refine ⟨?_, blank.2⟩
    show List.Forall₂ _ [] (readHeader (empty c)).types
    rw [blank.1]
    exact .nil
  have pass : Draft.ListsInside c.document.root :=
    Draft.listsInside_of_children fun child _ => Draft.lists_sites child
  exact pass ⟨none, none, false⟩ ⟨none, none, false⟩ ⟨rfl, rfl⟩ [] _ start _ _ (declared_eq_ok h)

/-- A built environment lists the outermost types. -/
theorem build_lists (h : build c = .ok e) :
    List.Forall₂ e.store.TypeOf (outermostSites c) e.types := by
  obtain ⟨d, declares, completes⟩ := build_eq_ok h
  have outlines := outlines_of_completes completes
  rw [outlines.types]
  refine (declared_lists declares).types.imp fun s t made => ?_
  have same : e.store.profile (.type t) = d.store.profile (.type t) := outlines.profile_eq made.has
  refine ⟨Nat.lt_of_lt_of_le made.has outlines.store.size, ?_, ?_⟩
  · rw [same, made.role]
  · exact (congrArg Profile.node same).trans made.node

/-- A named type tells whether it is local. -/
theorem eq_isLocal_of_role {store : Store} {t : TypeId} {isLocal : Bool}
    (role : (store.profile (.type t)).role = .type isLocal) : (store.type t).isLocal = isLocal := by
  have told : (store.type t).profile.role = .type isLocal := role
  simp only [TypeBinding.profile] at told
  split at told
  · cases told
  · split at told
    · cases told
    · exact Role.type.inj told

/-- The list holds the types directly below the root, in order, and no local type is found through
it: neither by its name nor around a node that stands in no type. -/
structure ListsTopLevel (c : Context) (e : Environment) : Prop where
  types : e.types.map (fun t => (e.store.type t).node) = (topLevelNodes c).map some
  isLocal : ∀ t ∈ e.types, (e.store.type t).isLocal = false
  named : ∀ name t, e.typeNamed name e.types = some t → (e.store.type t).isLocal = false
  enclosing : ∀ n m t, n.climb.find? (fun m => m.opensType || m.kind == .program) = some m →
    m.kind = .program → e.enclosingType n = some t → (e.store.type t).isLocal = false

/-- The list of a built environment holds the types that are declared outside of every type, in order,
and each of them is local if it is declared in code. These are the types directly below the root exactly
if no other node declares a type outside of every type. -/
theorem build_types_outermost (h : build c = .ok e) :
    List.Forall₂ (fun s t => (e.store.type t).node = some s.node ∧
      s.role = .type (e.store.type t).isLocal) (outermostSites c) e.types ∧
    (ListsTopLevel c e ↔ ∀ s ∈ outermostSites c, s.node ∈ c.document.root.children) := by
  have made := build_lists h
  have listed : List.Forall₂ (fun s t => (e.store.type t).node = some s.node ∧
      s.role = .type (e.store.type t).isLocal) (outermostSites c) e.types := by
    refine (forall₂_imp_of_mem made.flip fun t s hs (made : e.store.TypeOf s t) => ?_).flip
    obtain ⟨isLocal, role⟩ := (Site.isOutermost_iff.1 (List.mem_filter.1 hs).2).1
    exact ⟨made.node, by rw [role, eq_isLocal_of_role (made.role.trans role)]⟩
  have nodes : e.types.map (fun t => (e.store.type t).node) =
      ((outermostSites c).map (·.node)).map some := by
    have same : List.Forall₂ (fun t (s : Site) => (e.store.type t).node = some s.node) e.types
        (outermostSites c) := (made.imp fun _ _ made => made.node).flip
    rw [List.map_map, ← List.forall₂_eq_eq_eq, List.forall₂_map_left_iff,
      List.forall₂_map_right_iff]
    exact same
  refine ⟨listed, fun lists s hs => ?_, fun top => ?_⟩
  · have same : (outermostSites c).map (·.node) = topLevelNodes c :=
      List.map_injective_iff.2 (fun _ _ => Option.some.inj) (nodes.symm.trans lists.types)
    have member : s.node ∈ topLevelNodes c := same ▸ List.mem_map_of_mem hs
    exact (List.mem_filter.1 (List.mem_filter.1 member).1).1
  · have declared : ∀ t ∈ e.types, (e.store.type t).isLocal = false := by
      intro t ht
      obtain ⟨s, hs, -, role⟩ := exists_of_mem_right listed ht
      rw [eq_of_mem_children hs (top s hs)] at role
      exact (Role.type.inj role).symm
    refine ⟨?_, declared, fun name t found => declared t (List.mem_of_find?_eq_some found),
      fun n m t climbs isFile found => declared t ?_⟩
    · rw [nodes, map_node_outermostSites top]
    · have same : (fun m : Node => m.kind.isTypeDeclaration || m.isAnonymousBody ||
          m.kind == .program) = fun m => m.opensType || m.kind == .program := rfl
      rw [enclosingType, same, climbs] at found
      simp only [isFile, beq_self_eq_true, if_true] at found
      exact List.mem_of_mem_head? found

/-- A file with a class and a method beside it, which declares a local class. -/
def methodBesideClass : Context :=
  .ofFile "class A \x7b \x7d void m() \x7b class B \x7b \x7d \x7d" <|
    .named .program none 0 36 [
      .named .classDeclaration none 0 11 [
        .token "class" 0, .named .identifier (some .name) 6 7 [],
        .named .classBody (some .body) 8 11 [.token "\x7b" 8, .token "\x7d" 10]],
      .named .methodDeclaration none 12 36 [
        .named .voidType (some .type) 12 16 [],
        .named .identifier (some .name) 17 18 [],
        .named .formalParameters (some .parameters) 18 20 [.token "(" 18, .token ")" 19],
        .named .block (some .body) 21 36 [
          .token "\x7b" 21,
          .named .classDeclaration none 23 34 [
            .token "class" 23, .named .identifier (some .name) 29 30 [],
            .named .classBody (some .body) 31 34 [.token "\x7b" 31, .token "\x7d" 33]],
          .token "\x7d" 35]]]

set_option maxRecDepth 100000 in
theorem methodBesideClass_computed :
    (match build methodBesideClass with
    | .ok e => (e.typeNamed "B" e.types).map fun t => (e.store.type t).isLocal
    | .error _ => none) = some true := by
  decide +kernel

theorem methodBesideClass_named :
    ∃ e t, build methodBesideClass = .ok e ∧ e.typeNamed "B" e.types = some t ∧
      (e.store.type t).isLocal = true := by
  have computed := methodBesideClass_computed
  split at computed
  · next e built =>
    obtain ⟨t, found, isLocal⟩ := Option.map_eq_some_iff.1 computed
    exact ⟨e, t, built, found, isLocal⟩
  · cases computed

/-- The local class is listed, and found by its name from everywhere. -/
theorem methodBesideClass_lists_local :
    ¬ ∀ (c : Context) (e : Environment), build c = .ok e → ListsTopLevel c e := by
  intro claim
  obtain ⟨e, t, built, found, isLocal⟩ := methodBesideClass_named
  rw [(claim _ e built).named "B" t found] at isLocal
  cases isLocal

theorem memberFile_onlyTypes : ∀ child ∈ memberFile.document.root.namedChildren,
    child.kind.isTypeDeclaration = true := by
  decide

theorem build_types_outermost_files :
    (∃ e, build memberFile = .ok e ∧ ListsTopLevel memberFile e) ∧
      ∃ e, build methodBesideClass = .ok e ∧
        ∃ s ∈ outermostSites methodBesideClass,
          s.node ∉ methodBesideClass.document.root.children := by
  constructor
  · have computed := memberFile_computed.2
    split at computed
    · next e built =>
      refine ⟨e, built, (build_types_outermost built).2.2 fun s hs => ?_⟩
      rw [outermostSites_eq] at hs
      obtain ⟨child, hchild, hs⟩ := List.mem_flatMap.1 hs
      rw [Node.filter_sites_of_isType (memberFile_onlyTypes child hchild)] at hs
      rw [List.mem_singleton.1 hs]
      exact (List.mem_filter.1 hchild).1
    · cases computed
  · obtain ⟨e, t, built, found, isLocal⟩ := methodBesideClass_named
    refine ⟨e, built, ?_⟩
    by_contra inside
    have top : ∀ s ∈ outermostSites methodBesideClass,
        s.node ∈ methodBesideClass.document.root.children :=
      fun s hs => by_contra fun outside => inside ⟨s, hs, outside⟩
    rw [((build_types_outermost built).2.2 top).named "B" t found] at isLocal
    cases isLocal

end Environment

end JavaScope
