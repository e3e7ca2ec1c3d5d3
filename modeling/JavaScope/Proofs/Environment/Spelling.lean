import JavaScope.Proofs.Environment.Names

/-!
# What the first pass reads from the tree

The first pass gives a variable the text of its name, and declares types at nodes of the tree. The
second pass changes neither.
-/

namespace JavaScope

/-- The text of the name of a declaration, or of the node itself where it is a name alone. -/
def Document.spelling (d : Document) (n : Node) : String :=
  d.textOf (n.nameNode.getD n)

/-- The variable has the name that its node spells. -/
def VariableBinding.IsSpelled (d : Document) (b : VariableBinding) : Prop :=
  ∀ n, b.node = some n → b.name = d.spelling n

/-- The type has neither interfaces nor bounds yet. -/
structure TypeBinding.ListsNothing (b : TypeBinding) : Prop where
  interfaces : b.interfaces = []
  bounds : b.bounds = []

namespace Draft

/-- The draft is one of the context: its variables have the names that their nodes spell, and the nodes
of its types are in the tree, also of those that wait for the second pass. What stands in the headers of
types is left to that pass. -/
structure ReadFrom (c : Context) (d : Draft) : Prop where
  context : d.context = c
  names : ∀ v, (d.store.variable v).IsSpelled c.document
  nodes : ∀ t, ∀ n ∈ (d.store.type t).node, n ∈ c.document.root.preorder
  pending : ∀ t n, (.type t, n) ∈ d.pending → n ∈ c.document.root.preorder
  headers : ∀ t, (d.store.type t).ListsNothing

variable {c : Context}

/-! ## Steps of the first pass -/

/-- The action keeps what is read from the tree as it is there. -/
abbrev KeepsReading {α : Type} (c : Context) (action : DeclareM α) : Prop :=
  Ensures (ReadFrom c) action fun _ => ReadFrom c

section Steps

variable {b : VariableBinding}

theorem reads_addType {b : TypeBinding} {n : Node} (node : b.node = some n)
    (hn : n ∈ c.document.root.preorder) (header : b.ListsNothing) : KeepsReading c (addType b) := by
  refine .modifyGet fun d h => ⟨h.context, h.names, fun t => ?_, h.pending, fun t => ?_⟩
  · show ∀ n ∈ ((d.store.addType b).2.type t).node, n ∈ c.document.root.preorder
    rcases Store.type_addType_cases d.store b t with ⟨-, same⟩ | ⟨-, same⟩ | ⟨-, same⟩ <;> rw [same]
    · exact h.nodes t
    · intro m hm
      cases node.symm.trans hm
      exact hn
    · exact nofun
  · show ((d.store.addType b).2.type t).ListsNothing
    rcases Store.type_addType_cases d.store b t with ⟨-, same⟩ | ⟨-, same⟩ | ⟨-, same⟩ <;> rw [same]
    · exact h.headers t
    · exact header
    · exact ⟨rfl, rfl⟩

theorem reads_addMethod (b : MethodBinding) : KeepsReading c (addMethod b) :=
  .modifyGet fun _ h => ⟨h.context, h.names, h.nodes, h.pending, h.headers⟩

theorem reads_addVariable (spelled : b.IsSpelled c.document) : KeepsReading c (addVariable b) := by
  refine .modifyGet fun d h => ⟨h.context, fun v => ?_, h.nodes, h.pending, h.headers⟩
  show ((d.store.addVariable b).2.variable v).IsSpelled c.document
  rcases Store.variable_addVariable_cases d.store b v with ⟨-, same⟩ | ⟨-, same⟩ | ⟨-, same⟩ <;>
    rw [same]
  · exact h.names v
  · exact spelled
  · exact nofun

theorem reads_modifyOwner (owner : Option TypeId) {change : TypeBinding → TypeBinding}
    (kept : ∀ b, (change b).node = b.node ∧ (change b).interfaces = b.interfaces ∧
      (change b).bounds = b.bounds) : KeepsReading c (modifyOwner owner change) := by
  cases owner with
  | none => exact .pure fun _ h => h
  | some t =>
    refine .modify fun d h => ⟨h.context, h.names, fun u => ?_, h.pending, fun u => ?_⟩
    · show ∀ n ∈ ((d.store.modifyType t change).type u).node, n ∈ c.document.root.preorder
      rcases Store.type_modifyType_cases d.store t change u with same | ⟨-, -, same⟩ <;> rw [same]
      · exact h.nodes u
      · rw [(kept _).1]
        exact h.nodes u
    · show ((d.store.modifyType t change).type u).ListsNothing
      rcases Store.type_modifyType_cases d.store t change u with same | ⟨-, -, same⟩ <;> rw [same]
      · exact h.headers u
      · obtain ⟨-, interfaces, bounds⟩ := kept (d.store.type u)
        exact ⟨interfaces.trans (h.headers u).interfaces, bounds.trans (h.headers u).bounds⟩

theorem reads_register (n : Node) (b : BindingId) : KeepsReading c (register n b) :=
  .modify fun _ h => ⟨h.context, h.names, h.nodes, h.pending, h.headers⟩

theorem reads_postpone {b : BindingId} {n : Node}
    (member : ∀ t, b = .type t → n ∈ c.document.root.preorder) : KeepsReading c (postpone b n) := by
  refine .modify fun d h => ⟨h.context, h.names, h.nodes, fun t m hm => ?_, h.headers⟩
  rcases List.mem_append.1 hm with hm | hm
  · exact h.pending t m hm
  · obtain ⟨rfl, rfl⟩ := Prod.mk.inj (List.mem_singleton.1 hm)
    exact member t rfl

/-- Of variables and methods that wait for the second pass nothing is noted. -/
theorem reads_postponeCode {b : BindingId} {n : Node} (code : b.typeId? = none) :
    KeepsReading c (postpone b n) :=
  reads_postpone fun t isType => by
    rw [isType] at code
    cases code

/-- What a declaration reads of the draft is what the context has. -/
theorem reads_get_bind {α : Type} {rest : Draft → DeclareM α}
    (h : ∀ d, d.document = c.document → KeepsReading c (rest d)) :
    KeepsReading c (get >>= rest) := by
  refine Ensures.bind (Q := fun d s => d.document = c.document ∧ ReadFrom c s)
    (.get fun d h => ⟨?_, h⟩) fun d => .of_fact fun same => h d same
  rw [Environment.document, h.context]

end Steps

/-! ## Declarations -/

variable {n : Node}

theorem reads_declareType (hn : n ∈ c.document.root.preorder) (around : Surroundings) :
    KeepsReading c (declareType n around) := by
  refine reads_get_bind fun d _ => (ensures_ownerIsInterface _).bind fun _ =>
    Ensures.bind (reads_addType rfl hn ⟨rfl, rfl⟩) fun t => ?_
  have file : KeepsReading c (do register n (.type t); postpone (.type t) n; return t) :=
    (reads_register _ _).bind fun _ => (reads_postpone fun _ _ => hn).bind fun _ => .pure fun _ h => h
  have top : KeepsReading c (modify fun d => { d with types := d.types ++ [t] }) :=
    .modify fun _ h => ⟨h.context, h.names, h.nodes, h.pending, h.headers⟩
  have rest := Ensures.ite (c := around.owner.isNone = true) (fun _ => top.bind fun _ => file)
    fun _ => file
  exact .ite (fun _ => Ensures.bind (reads_modifyOwner _ fun _ => ⟨rfl, rfl, rfl⟩) fun _ => rest)
    fun _ => rest

theorem reads_declareAnonymous (hn : n ∈ c.document.root.preorder) (around : Surroundings) :
    KeepsReading c (declareAnonymous n around) :=
  reads_get_bind fun _ _ => Ensures.bind (reads_addType rfl hn ⟨rfl, rfl⟩) fun _ =>
    (reads_register _ _).bind fun _ => (reads_postpone fun _ _ => hn).bind fun _ =>
      .pure fun _ h => h

theorem reads_declareTypeParameters (hn : n ∈ c.document.root.preorder) (owner : Option TypeId)
    (method : Option MethodId) : KeepsReading c (declareTypeParameters n owner method) := by
  unfold declareTypeParameters
  split
  · next list found =>
    have member : ∀ each ∈ list.namedChildren, each ∈ c.document.root.preorder := fun each heach =>
      Node.mem_preorder_of_mem_children
        (Node.mem_preorder_of_mem_children hn (Node.mem_children_of_childOfKind found).1)
        (List.mem_filter.1 heach).1
    refine .forM fun each heach => reads_get_bind fun _ _ =>
      Ensures.bind (reads_addType rfl (member each (List.mem_filter.1 heach).1) ⟨rfl, rfl⟩) fun t => ?_
    have file : KeepsReading c (do register each (.type t); postpone (.type t) each) :=
      (reads_register _ _).bind fun _ =>
        reads_postpone fun _ _ => member each (List.mem_filter.1 heach).1
    cases method with
    | some m =>
      refine Ensures.bind (.modify fun _ h => ?_) fun _ => file
      exact ⟨h.context, h.names, h.nodes, h.pending, h.headers⟩
    | none =>
      exact Ensures.bind (reads_modifyOwner _ fun _ => ⟨rfl, rfl, rfl⟩) fun _ => file
  · exact .pure fun _ h => h

theorem reads_declareMethod (owner : Option TypeId) : KeepsReading c (declareMethod n owner) :=
  reads_get_bind fun _ _ => (ensures_ownerIsInterface owner).bind fun _ =>
    (reads_addMethod _).bind fun _ =>
      Ensures.bind (reads_modifyOwner _ fun _ => ⟨rfl, rfl, rfl⟩) fun _ =>
        (reads_register _ _).bind fun _ => (reads_postponeCode rfl).bind fun _ => .pure fun _ h => h

/-- Without a name the declaration of a field fails. -/
theorem reads_declareMember (owner : Option TypeId) (b : VariableBinding) :
    KeepsReading c (declareMember n n owner b) := by
  refine reads_get_bind fun d same => ?_
  refine Ensures.bind (Q := fun _ s => (∃ name, n.nameNode = some name) ∧ ReadFrom c s) ?_
    fun start => .of_fact fun ⟨name, named⟩ => ?_
  · exact (Ensures.get fun _ h => h).bind fun _ => .ofExcept_bind fun name found =>
      .pure fun _ h => ⟨⟨name, needed_eq_ok.1 found⟩, h⟩
  · refine Ensures.bind (reads_addVariable ?_) fun _ =>
      Ensures.bind (reads_modifyOwner _ fun _ => ⟨rfl, rfl, rfl⟩) fun _ =>
        .ofExcept_bind fun _ _ => (reads_register _ _).bind fun _ => .pure fun _ h => h
    rintro _ ⟨⟩
    show d.document.declaredName n = c.document.spelling n
    rw [same, Document.declaredName, Document.spelling, named]
    rfl

theorem reads_declareField (declaration : Node) (owner : Option TypeId) :
    KeepsReading c (declareField declaration n owner) :=
  (ensures_ownerIsInterface owner).bind fun _ => (reads_declareMember _ _).bind fun _ =>
    reads_postponeCode rfl

theorem reads_declareRecordComponents (owner : TypeId) :
    KeepsReading c (declareRecordComponents n owner) := by
  unfold declareRecordComponents
  split
  · exact .forM fun each _ => (reads_declareMember _ _).bind fun _ => reads_postponeCode rfl
  · exact .pure fun _ h => h

theorem reads_declareVariable (method : Option MethodId) (isParameter : Bool) :
    KeepsReading c (declareVariable n method isParameter) := by
  unfold declareVariable
  split
  · exact .pure fun _ h => h
  · next name named =>
    refine reads_get_bind fun d same => Ensures.bind (reads_addVariable ?_) fun _ =>
      (reads_register _ _).bind fun _ => reads_postponeCode rfl
    rintro _ ⟨⟩
    show d.document.textOf name = c.document.spelling n
    rw [same, Document.spelling, named]
    rfl

/-- A name alone has no name of its own. -/
theorem reads_declareInferredParameter (method : Option MethodId) (leaf : n.nameNode = none) :
    KeepsReading c (declareInferredParameter n method) := by
  refine reads_get_bind fun d same => Ensures.bind (reads_addVariable ?_) fun _ =>
    reads_register _ _
  rintro _ ⟨⟩
  show d.document.textOf n = c.document.spelling n
  rw [same, Document.spelling, leaf]
  rfl

theorem reads_declareInMethod (shape : c.document.tree.HasLeafNames)
    (hn : n ∈ c.document.root.preorder) (method : Option MethodId) :
    KeepsReading c (declareInMethod n method) := by
  have none : KeepsReading c (pure ()) := .pure fun _ h => h
  unfold declareInMethod
  split
  · exact .ite (fun _ => reads_declareVariable _ _) fun _ => none
  iterate 3 exact reads_declareVariable _ _
  · exact .ite (fun _ => reads_declareVariable _ _) fun _ => none
  · refine .forM fun name inferred => reads_declareInferredParameter _ ?_
    have isName := (Node.mem_inferredParameters inferred).1
    have member := Node.mem_preorder_trans hn (Node.mem_preorder_of_mem_inferredParameters inferred)
    exact Node.nameNode_of_leaf (shape.leaves name member (by simp [isName]))
  · exact none

/-! ## The pass -/

/-- The first pass over a node keeps the names as they are spelled. -/
structure Pass.KeepsReading (c : Context) (pass : Pass) : Prop where
  here : ∀ around, Draft.KeepsReading c (pass.here around)
  inside : ∀ around, Draft.KeepsReading c (pass.inside around)
  parts : ∀ part ∈ pass.parts, ∀ around, Draft.KeepsReading c (part.2 around)

section Pass

variable {below : List (Node × Pass)} (ih : ∀ each ∈ below, each.2.KeepsReading c)

include ih

theorem reads_insideField (f : Field) (around : Surroundings) :
    KeepsReading c (insideField below f around) := by
  unfold insideField
  split
  · next found => exact (ih _ (List.mem_of_find?_eq_some found)).inside around
  · exact .pure fun _ h => h

theorem reads_declareParameters (m : MethodId) (around : Surroundings) :
    KeepsReading c (declareParameters below m around) := by
  unfold declareParameters
  split
  · next found =>
    refine .forM fun part hpart => ?_
    have inside := (ih _ (List.mem_of_find?_eq_some found)).parts part hpart around
    exact .ite (fun _ => (reads_declareVariable _ _).bind fun _ => inside) fun _ => inside
  · exact .pure fun _ h => h

theorem passStep_keepsReading (shape : c.document.tree.HasLeafNames)
    (hn : n ∈ c.document.root.preorder) : (passStep n below).KeepsReading c := by
  have inside : ∀ around, KeepsReading c ((passStep n below).inside around) := fun around =>
    .forM fun each heach => (ih each (List.mem_filter.1 heach).1).here around
  refine ⟨fun around => ?_, inside, fun part hpart around => ?_⟩
  · refine .ite (fun _ => ?_) fun _ => .ite (fun _ => ?_) fun _ => .ite (fun _ => ?_) fun _ =>
      .ite (fun _ => ?_) fun _ => .ite (fun _ => ?_) fun _ => .ite (fun _ => ?_) fun _ => ?_
    · refine (reads_declareType hn around).bind fun t =>
        (reads_declareTypeParameters hn _ _).bind fun _ => ?_
      have body := reads_insideField ih .body ⟨some t, none, false⟩
      exact .ite (fun _ => (reads_declareRecordComponents t).bind fun _ => body) fun _ => body
    · exact (reads_declareAnonymous hn around).bind fun t => inside ⟨some t, none, false⟩
    · exact (reads_declareMethod around.owner).bind fun m =>
        (reads_declareTypeParameters hn _ _).bind fun _ => (reads_declareParameters ih m _).bind
          fun _ => reads_insideField ih .body _
    · refine .forM fun each heach => (reads_declareField n around.owner).bind fun _ => ?_
      exact (ih each (List.mem_filter.1 heach).1).inside _
    · exact Ensures.bind ((reads_declareMember _ _).bind fun _ => .pure fun _ h => h)
        fun _ => inside _
    · exact inside _
    · exact (reads_declareInMethod shape hn around.method).bind fun _ => inside around
  · obtain ⟨each, heach, rfl⟩ := List.mem_map.1 hpart
    exact (ih each (List.mem_filter.1 heach).1).inside around

end Pass

theorem keepsReading_fold (shape : c.document.tree.HasLeafNames)
    (hn : n ∈ c.document.root.preorder) : (n.fold passStep).KeepsReading c := by
  induction n using Node.induction with
  | h n ih =>
    rw [Node.fold_eq]
    refine passStep_keepsReading (fun each heach => ?_) shape hn
    obtain ⟨child, hchild, rfl⟩ := List.mem_map.1 heach
    exact ih child hchild (Node.mem_preorder_of_mem_children hn hchild)

end Draft

namespace Environment

variable {c : Context} {e : Environment} {d : Draft} {t : TypeId}

theorem declared_readFrom (declares : declared c = .ok d) (shape : c.document.tree.HasLeafNames) :
    d.ReadFrom c := by
  obtain ⟨sound, store⟩ := readHeader_sound c
  have start : Draft.ReadFrom c { readHeader (empty c) with pending := [] } := by
    refine ⟨sound.context, fun v n node => ?_, fun t n node => ?_, nofun, fun t => ?_⟩
    · have empty : ((readHeader (Environment.empty c)).store.variable v).node = some n := node
      rw [store] at empty
      cases empty
    · have empty : ((readHeader (Environment.empty c)).store.type t).node = some n := node
      rw [store] at empty
      cases empty
    · show ((readHeader (Environment.empty c)).store.type t).ListsNothing
      rw [store]
      exact ⟨rfl, rfl⟩
  have pass := (Draft.keepsReading_fold shape (Node.mem_preorder_self c.document.root)).inside
    ⟨none, none, false⟩
  exact pass _ start _ _ (declared_eq_ok declares)

/-- In a built environment variables have the names that their nodes spell. -/
theorem build_spells (built : build c = .ok e) (shape : c.document.tree.HasLeafNames)
    (v : VariableId) : (e.store.variable v).IsSpelled c.document := by
  obtain ⟨d, declares, completes⟩ := build_eq_ok built
  have spelled := (declared_readFrom declares shape).names v
  have same := (outlines_of_completes completes).store.variable_eq v
  have node : (e.store.variable v).node = (d.store.variable v).node :=
    (congrArg VariableBinding.node same :)
  have name : (e.store.variable v).name = (d.store.variable v).name :=
    (congrArg VariableBinding.name same :)
  intro n hn
  rw [name]
  exact spelled n (node ▸ hn)

/-! ## Types of the first pass -/

/-- The first pass over a context makes the type. -/
def MakesFirst (c : Context) (t : TypeId) : Prop :=
  ∃ d, declared c = .ok d ∧ d.store.Has (.type t)

section MakesFirst

variable (built : build c = .ok e)

include built

theorem MakesFirst.has (first : MakesFirst c t) : e.store.Has (.type t) := by
  obtain ⟨d, declares, completes⟩ := build_eq_ok built
  obtain ⟨_, declares', has⟩ := first
  rw [declares] at declares'
  cases declares'
  have outlines := outlines_of_completes completes
  exact has.mono outlines.store.size (Nat.le_of_eq outlines.store.vars.symm)
    (Nat.le_of_eq outlines.store.methods.symm)

theorem makesFirst_of_declares (ht : e.Declares t) : MakesFirst c t := by
  obtain ⟨d, declares, completes⟩ := build_eq_ok built
  exact ⟨d, declares, has_of_declares (declared_sound declares).sound.closed
    ((outlines_of_completes completes).declares ht)⟩

/-- What encloses a type of the first pass is one, too. -/
theorem MakesFirst.owner {u : TypeId} (first : MakesFirst c t)
    (owner : (e.store.type t).declaringClass = some u) : MakesFirst c u := by
  obtain ⟨d, declares, completes⟩ := build_eq_ok built
  obtain ⟨_, declares', has⟩ := first
  rw [declares] at declares'
  cases declares'
  have same : (e.store.type t).declaringClass = (d.store.type t).declaringClass :=
    (congrArg TypeBinding.declaringClass ((outlines_of_completes completes).store.type t has) :)
  rw [same] at owner
  exact ⟨d, declares, (declared_sound declares).sound.closed.store.types t u
    (by simp [TypeBinding.links, owner])⟩

theorem MakesFirst.node_mem (shape : c.document.tree.HasLeafNames) {n : Node}
    (first : MakesFirst c t) (node : (e.store.type t).node = some n) :
    n ∈ c.document.root.preorder := by
  obtain ⟨d, declares, completes⟩ := build_eq_ok built
  obtain ⟨_, declares', has⟩ := first
  rw [declares] at declares'
  cases declares'
  have same : (e.store.type t).node = (d.store.type t).node :=
    (congrArg TypeBinding.node ((outlines_of_completes completes).store.type t has) :)
  rw [same] at node
  exact (declared_readFrom declares shape).nodes t n node

end MakesFirst

end Environment

end JavaScope
