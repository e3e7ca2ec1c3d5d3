import JavaScope.Proofs.Environment.Closed
import JavaScope.Proofs.Environment.Sites
import Mathlib.Data.List.Forall2

/-!
# The first pass files the sites of a tree

What the first pass leaves behind is told by the sites that it meets: its table has their places in
order, every binding belongs to the type and the method of its site, and a type lists the bindings
that belong to it. No binding of the store is missing from the table.
-/

namespace JavaScope

/-! ## What a store tells of a binding -/

/-- What the second pass does not change: the sort of a declaration, its node, and the type and the
method it belongs to. -/
structure Profile where
  role : Role
  node : Option Node
  owner : Option TypeId
  method : Option MethodId

/-- Methods, fields and member types, which the type they belong to lists. -/
def Role.isListed : Role → Bool
  | .type isLocal => !isLocal
  | .method | .field => true
  | _ => false

/-- What a type tells about itself. -/
def TypeBinding.profile (b : TypeBinding) : Profile where
  role := if b.isTypeVariable then .typeParameter
    else if b.isAnonymous then .anonymousClass else .type b.isLocal
  node := b.node
  owner := b.declaringClass
  method := b.declaringMethod

/-- What a variable tells about itself. -/
def VariableBinding.profile (b : VariableBinding) : Profile where
  role := if b.isField then .field else .localVariable
  node := b.node
  owner := b.declaringClass
  method := b.declaringMethod

/-- What a method tells about itself. -/
def MethodBinding.profile (b : MethodBinding) : Profile where
  role := .method
  node := b.node
  owner := b.declaringClass
  method := none

/-- The bindings of one kind that a type lists. -/
def TypeBinding.listed (b : TypeBinding) : BindingKind → List BindingId
  | .type => b.declaredTypes.map .type
  | .variable => b.declaredFields.map .variable
  | .method => b.declaredMethods.map .method

namespace Store

/-- What a binding tells about itself. -/
def profile (s : Store) : BindingId → Profile
  | .type t => (s.type t).profile
  | .variable v => (s.variable v).profile
  | .method m => (s.method m).profile

/-- The binding is of a kind and belongs to a type that lists it. -/
def belongs (s : Store) (t : TypeId) (k : BindingKind) (b : BindingId) : Bool :=
  b.kind == k && (s.profile b).role.isListed && (s.profile b).owner == some t

/-- The second store has one more binding, which one of its types may list. -/
structure Adds (s : Store) (b : BindingId) (linked : Option TypeId) (s' : Store) : Prop where
  fresh : ¬ s.Has b
  has : ∀ b', s'.Has b' ↔ s.Has b' ∨ b' = b
  kept : ∀ b' ≠ b, s'.profile b' = s.profile b'
  listed : ∀ t k, (s'.type t).listed k =
    (s.type t).listed k ++ if linked = some t ∧ b.kind = k then [b] else []

/-- The store with a change of a type, if there is one. -/
def modifyOwner (s : Store) (owner : Option TypeId) (change : TypeBinding → TypeBinding) : Store :=
  match owner with
  | some t => s.modifyType t change
  | none => s

variable {s s' : Store}

theorem adds_type {b : TypeBinding} (unlisted : ∀ k, b.listed k = []) :
    s.Adds (.type (s.addType b).1) none (s.addType b).2 where
  fresh := Nat.lt_irrefl _
  has b' := by
    cases b' with
    | type t =>
      show t.index < (s.addType b).2.types.size ↔ t.index < s.types.size ∨ _
      rw [size_addType, Nat.lt_succ_iff_lt_or_eq, BindingId.type.injEq]
      obtain ⟨i⟩ := t
      simp [addType]
    | «variable» v => simp [Has, addType]
    | method m => simp [Has, addType]
  kept b' ne := by
    cases b' with
    | type t =>
      rcases type_addType_cases s b t with ⟨-, h⟩ | ⟨heq, -⟩ | ⟨hgt, h⟩
      · exact congrArg TypeBinding.profile h
      · exact absurd (congrArg (fun i => BindingId.type ⟨i⟩) heq) ne
      · show ((s.addType b).2.type t).profile = (s.type t).profile
        rw [h, type_of_size_le (Nat.le_of_lt hgt)]
    | «variable» v => rfl
    | method m => rfl
  listed t k := by
    rw [if_neg (by simp), List.append_nil]
    rcases type_addType_cases s b t with ⟨-, h⟩ | ⟨heq, h⟩ | ⟨hgt, h⟩ <;> rw [h]
    · rw [type_of_size_le (Nat.le_of_eq heq.symm), unlisted]
      cases k <;> rfl
    · rw [type_of_size_le (Nat.le_of_lt hgt)]

theorem adds_variable (b : VariableBinding) :
    s.Adds (.variable (s.addVariable b).1) none (s.addVariable b).2 where
  fresh := Nat.lt_irrefl _
  has b' := by
    cases b' with
    | «variable» v =>
      show v.index < (s.addVariable b).2.vars.size ↔ v.index < s.vars.size ∨ _
      rw [size_addVariable, Nat.lt_succ_iff_lt_or_eq, BindingId.variable.injEq]
      obtain ⟨i⟩ := v
      simp [addVariable]
    | type t => simp [Has, addVariable]
    | method m => simp [Has, addVariable]
  kept b' ne := by
    cases b' with
    | «variable» v =>
      rcases variable_addVariable_cases s b v with ⟨-, h⟩ | ⟨heq, -⟩ | ⟨hgt, h⟩
      · exact congrArg VariableBinding.profile h
      · exact absurd (congrArg (fun i => BindingId.variable ⟨i⟩) heq) ne
      · show ((s.addVariable b).2.variable v).profile = (s.variable v).profile
        rw [h]
        exact congrArg _ (getD_of_size_le _ _ _ (Nat.le_of_lt hgt)).symm
    | type t => rfl
    | method m => rfl
  listed t k := by
    rw [if_neg (by simp), List.append_nil]
    rfl

theorem adds_method (b : MethodBinding) :
    s.Adds (.method (s.addMethod b).1) none (s.addMethod b).2 where
  fresh := Nat.lt_irrefl _
  has b' := by
    cases b' with
    | method m =>
      show m.index < (s.addMethod b).2.methods.size ↔ m.index < s.methods.size ∨ _
      rw [size_addMethod, Nat.lt_succ_iff_lt_or_eq, BindingId.method.injEq]
      obtain ⟨i⟩ := m
      simp [addMethod]
    | type t => simp [Has, addMethod]
    | «variable» v => simp [Has, addMethod]
  kept b' ne := by
    cases b' with
    | method m =>
      rcases method_addMethod_cases s b m with ⟨-, h⟩ | ⟨heq, -⟩ | ⟨hgt, h⟩
      · exact congrArg MethodBinding.profile h
      · exact absurd (congrArg (fun i => BindingId.method ⟨i⟩) heq) ne
      · show ((s.addMethod b).2.method m).profile = (s.method m).profile
        rw [h]
        exact congrArg _ (getD_of_size_le _ _ _ (Nat.le_of_lt hgt)).symm
    | type t => rfl
    | «variable» v => rfl
  listed t k := by
    rw [if_neg (by simp), List.append_nil]
    rfl

theorem profile_modifyType {t : TypeId} {change : TypeBinding → TypeBinding}
    (h : ∀ o, (change o).profile = o.profile) (b : BindingId) :
    (s.modifyType t change).profile b = s.profile b := by
  cases b with
  | type u =>
    show ((s.modifyType t change).type u).profile = (s.type u).profile
    rcases type_modifyType_cases s t change u with hu | ⟨-, -, hu⟩ <;> rw [hu]
    exact h _
  | «variable» v => rfl
  | method m => rfl

theorem profile_modifyMethod {m : MethodId} {change : MethodBinding → MethodBinding}
    (h : ∀ o, (change o).profile = o.profile) (b : BindingId) :
    (s.modifyMethod m change).profile b = s.profile b := by
  cases b with
  | type t => rfl
  | «variable» v => rfl
  | method o =>
    show ((s.modifyMethod m change).method o).profile = (s.method o).profile
    rcases method_modifyMethod_cases s m change o with ho | ⟨-, -, ho⟩ <;> rw [ho]
    exact h _

theorem profile_modifyOwner {owner : Option TypeId} {change : TypeBinding → TypeBinding}
    (h : ∀ o, (change o).profile = o.profile) (b : BindingId) :
    (s.modifyOwner owner change).profile b = s.profile b := by
  cases owner with
  | some t => exact profile_modifyType h b
  | none => rfl

theorem has_modifyType (t : TypeId) (change : TypeBinding → TypeBinding) (b : BindingId) :
    (s.modifyType t change).Has b ↔ s.Has b := by
  cases b <;> simp [Has, modifyType]

theorem listed_modifyType_of_ne {t u : TypeId} (ne : t ≠ u)
    (change : TypeBinding → TypeBinding) : (s.modifyType t change).type u = s.type u := by
  rcases type_modifyType_cases s t change u with hu | ⟨heq, -, -⟩
  · exact hu
  · exact absurd (congrArg TypeId.mk heq).symm ne

namespace Adds

variable {b : BindingId} {linked : Option TypeId} {change : TypeBinding → TypeBinding}

/-- The type that a new binding belongs to lists it. -/
theorem link {owner : Option TypeId} (h : s.Adds b none s')
    (has : ∀ t ∈ owner, s'.Has (.type t)) (profile : ∀ o, (change o).profile = o.profile)
    (listed : ∀ o k, (change o).listed k = o.listed k ++ if b.kind = k then [b] else []) :
    s.Adds b owner (s'.modifyOwner owner change) where
  fresh := h.fresh
  has b' := by
    rw [← h.has b']
    cases owner with
    | some t => exact has_modifyType t change b'
    | none => rfl
  kept b' ne := by
    rw [profile_modifyOwner profile, h.kept b' ne]
  listed u k := by
    have before := h.listed u k
    rw [if_neg (by simp), List.append_nil] at before
    cases owner with
    | none => simpa [modifyOwner] using before
    | some t =>
      show ((s'.modifyType t change).type u).listed k = _
      by_cases same : t = u
      · subst same
        have changed : (s'.modifyType t change).type t = change (s'.type t) := by
          have small : t.index < s'.types.size := has t rfl
          simp [modifyType, type, Array.getD, small, Array.getElem_modify_self]
        rw [changed, listed, before]
        simp
      · rw [listed_modifyType_of_ne same, before]
        simp [same]

/-- A change that shows in no list. -/
theorem modifyOwner {owner : Option TypeId} (h : s.Adds b linked s')
    (profile : ∀ o, (change o).profile = o.profile)
    (listed : ∀ o k, (change o).listed k = o.listed k) :
    s.Adds b linked (s'.modifyOwner owner change) where
  fresh := h.fresh
  has b' := by
    rw [← h.has b']
    cases owner with
    | some t => exact has_modifyType t change b'
    | none => rfl
  kept b' ne := by
    rw [profile_modifyOwner profile, h.kept b' ne]
  listed u k := by
    rw [← h.listed u k]
    cases owner with
    | none => rfl
    | some t =>
      show ((s'.modifyType t change).type u).listed k = _
      rcases type_modifyType_cases s' t change u with hu | ⟨-, -, hu⟩ <;> rw [hu]
      exact listed _ k

theorem modifyMethod {m : MethodId} {change : MethodBinding → MethodBinding}
    (h : s.Adds b linked s') (profile : ∀ o, (change o).profile = o.profile) :
    s.Adds b linked (s'.modifyMethod m change) where
  fresh := h.fresh
  has b' := by
    rw [← h.has b']
    cases b' <;> simp [Has, Store.modifyMethod]
  kept b' ne := by
    rw [profile_modifyMethod profile, h.kept b' ne]
  listed := h.listed

end Adds

end Store

namespace Draft

theorem outcome_modifyOwner (owner : Option TypeId) (change : TypeBinding → TypeBinding)
    (d : Draft) :
    outcome (modifyOwner owner change) d =
      (.ok ⟨⟩, d.withStore (d.store.modifyOwner owner change)) := by
  cases owner <;> rfl

end Draft

/-! ## Filing a site -/

/-- The binding is what the site declares, and belongs to the type and the method that some entries
of a table name. -/
structure Site.Declares (s : Site) (table : List (NodeKey × BindingId)) (p : Profile) : Prop where
  role : p.role = s.role
  node : p.node = some s.node
  owner : s.role.isMember = true →
    Option.Rel (fun m t => (m.key, BindingId.type t) ∈ table) s.owner p.owner
  method : s.role = .localVariable →
    Option.Rel (fun m o => (m.key, BindingId.method o) ∈ table) s.method p.method

theorem rel_mono {α β : Type} {r r' : α → β → Prop} {a : Option α} {b : Option β}
    (h : Option.Rel r a b) (sub : ∀ x y, r x y → r' x y) : Option.Rel r' a b := by
  cases h with
  | some hxy => exact .some (sub _ _ hxy)
  | none => exact .none

theorem forall₂_imp_of_mem {α β : Type} {r r' : α → β → Prop} {xs : List α} {ys : List β}
    (h : List.Forall₂ r xs ys) (sub : ∀ x, ∀ y ∈ ys, r x y → r' x y) : List.Forall₂ r' xs ys := by
  induction h with
  | nil => exact .nil
  | cons hxy _ ih =>
    exact .cons (sub _ _ List.mem_cons_self hxy) (ih fun x y hy => sub x y (List.mem_cons_of_mem _ hy))

theorem Site.Declares.mono {s : Site} {table table' : List (NodeKey × BindingId)} {p : Profile}
    (h : s.Declares table p) (sub : ∀ entry ∈ table, entry ∈ table') : s.Declares table' p where
  role := h.role
  node := h.node
  owner isMember := rel_mono (h.owner isMember) fun _ _ => sub _
  method isLocal := rel_mono (h.method isLocal) fun _ _ => sub _

theorem exists_of_mem_right {α β : Type} {r : α → β → Prop} {xs : List α} {ys : List β}
    (h : List.Forall₂ r xs ys) {y : β} (hy : y ∈ ys) : ∃ x ∈ xs, r x y := by
  induction h with
  | nil => cases hy
  | cons hxy _ ih =>
    rcases List.mem_cons.1 hy with rfl | hy
    · exact ⟨_, List.mem_cons_self, hxy⟩
    · obtain ⟨x, hx, hxy⟩ := ih hy
      exact ⟨x, List.mem_cons_of_mem _ hx, hxy⟩

/-- The table of an environment has the sites in order, and its types list what belongs to them. -/
structure Environment.Files (sites : List Site) (e : Environment) : Prop where
  entries : List.Forall₂ (fun (s : Site) (entry : NodeKey × BindingId) =>
    entry.1 = s.place.key ∧ s.Declares e.declarations (e.store.profile entry.2))
    sites e.declarations
  listed : ∀ t k, (e.store.type t).listed k = e.bindings.filter (e.store.belongs t k)

/-- A binding of a sound environment is filed under one key. -/
theorem Environment.Sound.key_unique {c : Context} {e : Environment} (h : e.Sound c)
    {k k' : NodeKey} {b : BindingId} (hk : (k, b) ∈ e.declarations)
    (hk' : (k', b) ∈ e.declarations) : k = k' := by
  have same := List.inj_on_of_nodup_map h.distinct hk hk' rfl
  exact congrArg Prod.fst same

namespace Environment.Files

variable {sites : List Site} {e : Environment} {b : BindingId}

theorem keys (h : e.Files sites) : e.declarations.map Prod.fst = sites.map (·.place.key) := by
  have same : List.Forall₂ (fun entry (s : Site) => entry.1 = s.place.key) e.declarations sites :=
    (h.entries.imp fun _ _ h => h.1).flip
  rw [← List.forall₂_eq_eq_eq, List.forall₂_map_left_iff, List.forall₂_map_right_iff]
  exact same

/-- Every binding of the table is declared at a site. -/
theorem exists_site (h : e.Files sites) (hb : b ∈ e.bindings) :
    ∃ s ∈ sites, (s.place.key, b) ∈ e.declarations ∧
      s.Declares e.declarations (e.store.profile b) := by
  obtain ⟨entry, he, rfl⟩ := List.mem_map.1 hb
  obtain ⟨s, hs, key, declares⟩ := exists_of_mem_right h.entries he
  refine ⟨s, hs, ?_, declares⟩
  rw [← key]
  exact he

/-- Where no two sites share a key, a node declares what is filed under its key. -/
theorem declaredAt_eq_some_iff (h : e.Files sites) (nodup : (sites.map (·.place.key)).Nodup)
    {n : Node} : e.declaredAt n = some b ↔ (n.key, b) ∈ e.declarations := by
  refine ⟨mem_of_declaredAt, fun member => ?_⟩
  rw [← h.keys] at nodup
  obtain ⟨before, after, split⟩ := List.append_of_mem member
  rw [split, List.map_append, List.map_cons, List.nodup_append] at nodup
  refine List.lookup_eq_some_iff.2 ⟨before, after, split, fun entry he => ?_⟩
  have ne := nodup.2.2 entry.1 (List.mem_map_of_mem he) n.key List.mem_cons_self
  simpa using Ne.symm ne

/-- The type that the table names for a node is the one that is declared there. -/
theorem bind_typeAt (h : e.Files sites) (nodup : (sites.map (·.place.key)).Nodup) {m : Option Node}
    {owner : Option TypeId}
    (owns : Option.Rel (fun m t => (m.key, BindingId.type t) ∈ e.declarations) m owner) :
    m.bind e.typeAt = owner := by
  cases owns with
  | none => rfl
  | some entry =>
    rw [Option.bind_some, typeAt, (h.declaredAt_eq_some_iff nodup).2 entry]
    rfl

theorem bind_methodAt (h : e.Files sites) (nodup : (sites.map (·.place.key)).Nodup)
    {m : Option Node} {method : Option MethodId}
    (holds : Option.Rel (fun m o => (m.key, BindingId.method o) ∈ e.declarations) m method) :
    m.bind e.methodAt = method := by
  cases holds with
  | none => rfl
  | some entry =>
    rw [Option.bind_some, methodAt, (h.declaredAt_eq_some_iff nodup).2 entry]
    rfl

end Environment.Files

/-- The draft files the sites, has no other bindings, and still knows some entries. -/
structure Draft.Follows (known : List (NodeKey × BindingId)) (sites : List Site) (d : Draft) :
    Prop extends d.toEnvironment.Files sites where
  stored : ∀ b, d.store.Has b ↔ b ∈ d.bindings
  known : ∀ entry ∈ known, entry ∈ d.declarations

theorem putEntry_eq_append {κ α : Type} [DecidableEq κ] {key : κ} {table : List (κ × α)}
    (fresh : key ∉ table.map Prod.fst) (value : α) :
    putEntry key value table = table ++ [(key, value)] := by
  induction table with
  | nil => rfl
  | cons entry rest ih =>
    rw [List.map_cons, List.mem_cons, not_or] at fresh
    rw [putEntry, if_neg (Ne.symm fresh.1), ih fresh.2]
    rfl

theorem Site.fresh_of_nodup {sites : List Site} {s : Site}
    (h : ((sites ++ [s]).map (·.place.key)).Nodup) : s.place.key ∉ sites.map (·.place.key) := by
  rw [List.map_append, List.nodup_append] at h
  intro member
  exact h.2.2 _ member _ (List.mem_singleton_self _) rfl

namespace Draft.Follows

variable {known : List (NodeKey × BindingId)} {sites : List Site} {d d' : Draft} {s : Site}
  {b : BindingId}

theorem weaken {known' : List (NodeKey × BindingId)} (h : d.Follows known' sites)
    (sub : ∀ entry ∈ known, entry ∈ known') : d.Follows known sites :=
  { h with known := fun entry he => h.known entry (sub entry he) }

/-- What is declared once is filed at the end of the table. -/
theorem declare {linked : Option TypeId} (h : d.Follows known sites)
    (fresh : s.place.key ∉ sites.map (·.place.key)) (adds : d.store.Adds b linked d'.store)
    (table : d'.declarations = putEntry s.place.key b d.declarations)
    (declares : s.Declares known (d'.store.profile b))
    (isLinked : linked = if s.role.isListed then (d'.store.profile b).owner else none) :
    d'.Follows ((s.place.key, b) :: known) (sites ++ [s]) := by
  rw [putEntry_eq_append (h.toFiles.keys ▸ fresh)] at table
  have old : ∀ b' ∈ d.bindings, d'.store.profile b' = d.store.profile b' := by
    intro b' hb'
    apply adds.kept
    rintro rfl
    exact adds.fresh ((h.stored _).2 hb')
  have bindings : d'.bindings = d.bindings ++ [b] := by
    rw [Environment.bindings, table, List.map_append]
    rfl
  have grown : ∀ entry ∈ d.declarations, entry ∈ d'.declarations := by
    intro entry he
    rw [table]
    exact List.mem_append_left _ he
  refine ⟨⟨?_, fun t k => ?_⟩, fun b' => ?_, ?_⟩
  · have before : List.Forall₂ (fun (s : Site) (entry : NodeKey × BindingId) =>
        entry.1 = s.place.key ∧ s.Declares d'.declarations (d'.store.profile entry.2))
        sites d.declarations := by
      refine forall₂_imp_of_mem h.entries fun s entry he filed => ⟨filed.1, ?_⟩
      rw [old entry.2 (List.mem_map_of_mem he)]
      exact filed.2.mono grown
    have now : s.Declares d'.declarations (d'.store.profile b) :=
      declares.mono fun entry he => grown entry (h.known entry he)
    rw [table] at before now ⊢
    exact List.rel_append before (.cons ⟨rfl, now⟩ .nil)
  · rw [bindings, List.filter_append, adds.listed, h.listed]
    congr 1
    · refine List.filter_congr fun b' hb' => ?_
      rw [Store.belongs, Store.belongs, old b' hb']
    · rw [List.filter_singleton, Store.belongs, declares.role, isLinked]
      cases s.role.isListed <;> simp [and_comm]
  · rw [adds.has, h.stored, bindings, List.mem_append, List.mem_singleton]
  · intro entry he
    rcases List.mem_cons.1 he with rfl | he
    · rw [table]
      exact List.mem_append_right _ (List.mem_singleton_self _)
    · exact grown entry (h.known entry he)

end Draft.Follows

namespace Draft

variable {known : List (NodeKey × BindingId)} {sites : List Site} {b : BindingId} {n : Node}

/-- The draft files the sites, and has one more binding, which is not filed yet. -/
def Made (known : List (NodeKey × BindingId)) (sites : List Site) (b : BindingId) (p : Profile)
    (linked : Option TypeId) (d : Draft) : Prop :=
  ∃ before : Draft, before.Follows known sites ∧ d.declarations = before.declarations ∧
    before.store.Adds b linked d.store ∧ d.store.profile b = p

/-- An entry of the table names the type that encloses a node. -/
abbrev Owns (known : List (NodeKey × BindingId)) (m : Option Node) (owner : Option TypeId) : Prop :=
  Option.Rel (fun m t => (m.key, BindingId.type t) ∈ known) m owner

/-- An entry of the table names the method that encloses a node. -/
abbrev Holds (known : List (NodeKey × BindingId)) (m : Option Node) (method : Option MethodId) :
    Prop :=
  Option.Rel (fun m o => (m.key, BindingId.method o) ∈ known) m method

theorem made_addType {o : TypeBinding} {p : Profile} (profile : o.profile = p)
    (unlisted : ∀ k, o.listed k = []) :
    Ensures (Follows known sites) (addType o) fun t => Made known sites (.type t) p none :=
  .modifyGet fun d h => ⟨d, h, rfl, Store.adds_type unlisted,
    (congrArg TypeBinding.profile (Store.type_addType_self d.store o)).trans profile⟩

theorem made_addVariable {o : VariableBinding} {p : Profile} (profile : o.profile = p) :
    Ensures (Follows known sites) (addVariable o) fun v =>
      Made known sites (.variable v) p none :=
  .modifyGet fun d h => ⟨d, h, rfl, Store.adds_variable o,
    (congrArg VariableBinding.profile (Store.variable_addVariable_self d.store o)).trans profile⟩

theorem made_addMethod (o : MethodBinding) :
    Ensures (Follows known sites) (addMethod o) fun m =>
      Made known sites (.method m) o.profile none :=
  .modifyGet fun d h => ⟨d, h, rfl, Store.adds_method o,
    congrArg MethodBinding.profile (Store.method_addMethod_self d.store o)⟩

theorem made_link {p : Profile} {m : Option Node} {owner : Option TypeId}
    {change : TypeBinding → TypeBinding} (owns : Owns known m owner)
    (profile : ∀ o, (change o).profile = o.profile)
    (listed : ∀ o k, (change o).listed k = o.listed k ++ if b.kind = k then [b] else []) :
    Ensures (Made known sites b p none) (modifyOwner owner change) fun _ =>
      Made known sites b p owner := by
  rintro d ⟨before, follows, table, adds, made⟩ _ d' run
  rw [outcome_modifyOwner] at run
  cases run
  have has : ∀ t ∈ owner, d.store.Has (.type t) := by
    rintro t rfl
    cases owns with
    | some entry =>
      exact (adds.has _).2 (.inl ((follows.stored _).2 (List.mem_map_of_mem (follows.known _ entry))))
  exact ⟨before, follows, table, adds.link has profile listed,
    (Store.profile_modifyOwner profile b).trans made⟩

theorem made_modifyOwner {p : Profile} {linked owner : Option TypeId}
    {change : TypeBinding → TypeBinding} (profile : ∀ o, (change o).profile = o.profile)
    (listed : ∀ o k, (change o).listed k = o.listed k) :
    Ensures (Made known sites b p linked) (modifyOwner owner change) fun _ =>
      Made known sites b p linked := by
  rintro d ⟨before, follows, table, adds, made⟩ _ d' run
  rw [outcome_modifyOwner] at run
  cases run
  exact ⟨before, follows, table, adds.modifyOwner profile listed,
    (Store.profile_modifyOwner profile b).trans made⟩

theorem made_modifyMethod {p : Profile} {linked : Option TypeId} {m : MethodId}
    {change : MethodBinding → MethodBinding} (profile : ∀ o, (change o).profile = o.profile) :
    Ensures (Made known sites b p linked)
      (modify fun d => d.withStore (d.store.modifyMethod m change)) fun _ =>
        Made known sites b p linked :=
  .modify fun _ ⟨before, follows, table, adds, made⟩ => ⟨before, follows, table,
    adds.modifyMethod profile, (Store.profile_modifyMethod profile b).trans made⟩

/-- Filing what was made; the type that it belongs to lists it if it lists such bindings. -/
theorem follows_register {p : Profile} {linked : Option TypeId} {s : Site}
    (fresh : s.place.key ∉ sites.map (·.place.key)) (declares : s.Declares known p)
    (isLinked : linked = if s.role.isListed then p.owner else none) :
    Ensures (Made known sites b p linked) (register s.place b) fun _ =>
      Follows ((s.place.key, b) :: known) (sites ++ [s]) := by
  refine .modify fun d ⟨before, follows, table, adds, made⟩ => ?_
  refine follows.declare fresh adds ?_ ?_ ?_
  · show putEntry s.place.key b d.declarations = _
    rw [table]
  · rw [← made] at declares
    exact declares
  · rw [← made] at isLinked
    exact isLinked

theorem follows_postpone (b : BindingId) (n : Node) :
    Ensures (Follows known sites) (postpone b n) fun _ => Follows known sites :=
  .modify fun _ h => { h with }

/-! ## Declarations -/

theorem listed_empty_type (o : TypeBinding) (fields : o.declaredFields = [])
    (methods : o.declaredMethods = []) (types : o.declaredTypes = []) (k : BindingKind) :
    o.listed k = [] := by
  cases k <;> simp [TypeBinding.listed, fields, methods, types]

theorem follows_declareType {around : Surroundings} {m : Option Node}
    (owns : Owns known m around.owner) (fresh : n.key ∉ sites.map (·.place.key)) :
    Ensures (Follows known sites) (declareType n around) fun t =>
      Follows ((n.key, .type t) :: known) (sites ++ [⟨.type around.inBody, n, n, m, none⟩]) := by
  have notParameter : (typeKindOf n.kind == .typeParameter) = false := by
    cases n.kind <;> rfl
  refine (Ensures.get fun _ h => h).bind fun d => (ensures_ownerIsInterface _).bind fun _ => ?_
  refine (made_addType (p := ⟨.type around.inBody, some n, around.owner,
    if around.inBody then around.method else none⟩) ?_ ?_).bind fun t => ?_
  · simp [TypeBinding.profile, TypeBinding.isTypeVariable, notParameter]
  · exact listed_empty_type _ rfl rfl rfl
  have file : ∀ linked, (linked = if around.inBody then none else around.owner) →
      Ensures (Made known sites (.type t) ⟨.type around.inBody, some n, around.owner,
        if around.inBody then around.method else none⟩ linked) (do
          register n (.type t)
          postpone (.type t) n
          return t) fun t => Follows ((n.key, .type t) :: known)
            (sites ++ [⟨.type around.inBody, n, n, m, none⟩]) := by
    intro linked isLinked
    refine (follows_register (s := ⟨.type around.inBody, n, n, m, none⟩) fresh ?_ ?_).bind fun _ =>
      (follows_postpone _ _).bind fun _ => .pure fun _ h => h
    · exact ⟨rfl, rfl, fun _ => owns, nofun⟩
    · rw [isLinked]
      cases around.inBody <;> rfl
  have top : ∀ {p linked}, Ensures (Made known sites (.type t) p linked)
      (modify fun d => { d with types := d.types ++ [t] })
      fun _ => Made known sites (.type t) p linked := .modify fun _ h => h
  have tail := fun linked isLinked => Ensures.ite (c := around.owner.isNone = true)
    (fun _ => top.bind fun _ => file linked isLinked) fun _ => file linked isLinked
  dsimp only
  refine .ite (fun isMember => ?_) fun isLocal => ?_
  · refine (made_link owns ?_ ?_).bind fun _ => tail around.owner (by simp_all)
    · exact fun _ => rfl
    · intro o k
      cases k <;> simp [TypeBinding.listed, BindingId.kind]
  · exact tail none (by simp_all)

theorem follows_declareAnonymous {around : Surroundings} {m : Option Node}
    (owns : Owns known m around.owner) (fresh : n.key ∉ sites.map (·.place.key)) :
    Ensures (Follows known sites) (declareAnonymous n around) fun t =>
      Follows ((n.key, .type t) :: known) (sites ++ [⟨.anonymousClass, n, n, m, none⟩]) := by
  refine (Ensures.get fun _ h => h).bind fun d => ?_
  refine (made_addType (p := ⟨.anonymousClass, some n, around.owner, around.method⟩) ?_ ?_).bind
    fun t => ?_
  · rfl
  · exact listed_empty_type _ rfl rfl rfl
  refine (follows_register (s := ⟨.anonymousClass, n, n, m, none⟩) fresh ?_ rfl).bind fun _ =>
    (follows_postpone _ _).bind fun _ => .pure fun _ h => h
  exact ⟨rfl, rfl, fun _ => owns, nofun⟩

theorem follows_declareTypeParameter {owner : Option TypeId} {method : Option MethodId}
    {m o : Option Node} (fresh : n.key ∉ sites.map (·.place.key)) :
    Ensures (Follows known sites) (declareTypeParameter n owner method) fun _ =>
      Follows known (sites ++ [⟨.typeParameter, n, n, m, o⟩]) := by
  refine (Ensures.get fun _ h => h).bind fun d => ?_
  refine (made_addType (p := ⟨.typeParameter, some n, if method.isNone then owner else none,
    method⟩) ?_ ?_).bind fun t => ?_
  · rfl
  · exact listed_empty_type _ rfl rfl rfl
  have file : Ensures (Made known sites (.type t)
      ⟨.typeParameter, some n, if method.isNone then owner else none, method⟩ none)
      (do register n (.type t); postpone (.type t) n)
      fun _ => Follows known (sites ++ [⟨.typeParameter, n, n, m, o⟩]) := by
    refine (follows_register (s := ⟨.typeParameter, n, n, m, o⟩) fresh ?_ rfl).bind fun _ =>
      (follows_postpone _ _).weaken (fun _ h => h) fun _ _ h =>
        h.weaken fun _ => List.mem_cons_of_mem _
    exact ⟨rfl, rfl, nofun, nofun⟩
  cases method with
  | some method =>
    refine Ensures.bind (made_modifyMethod ?_) fun _ => file
    exact fun _ => rfl
  | none =>
    refine Ensures.bind (made_modifyOwner ?_ ?_) fun _ => file
    · exact fun _ => rfl
    · intro o k
      cases k <;> rfl

theorem follows_declareMethod {owner : Option TypeId} {m : Option Node}
    (owns : Owns known m owner) (fresh : n.key ∉ sites.map (·.place.key)) :
    Ensures (Follows known sites) (declareMethod n owner) fun o =>
      Follows ((n.key, .method o) :: known) (sites ++ [⟨.method, n, n, m, none⟩]) := by
  refine (Ensures.get fun _ h => h).bind fun d => ?_
  refine (ensures_ownerIsInterface owner).bind fun _ => (made_addMethod _).bind fun o => ?_
  refine (made_link owns ?_ ?_).bind fun _ => ?_
  · exact fun _ => rfl
  · intro b k
    cases k <;> simp [TypeBinding.listed, BindingId.kind]
  refine (follows_register (s := ⟨.method, n, n, m, none⟩) fresh ?_ rfl).bind fun _ =>
    (follows_postpone _ _).bind fun _ => .pure fun _ h => h
  exact ⟨rfl, rfl, fun _ => owns, nofun⟩

/-- A field is filed under its name; without a name the pass fails. -/
theorem follows_declareMember {owner : Option TypeId} {m : Option Node} {b : VariableBinding}
    (owns : Owns known m owner)
    (fresh : ((sites ++ Plan.named .field n m none).map (·.place.key)).Nodup) :
    Ensures (Follows known sites) (declareMember n n owner b) fun _ =>
      Follows known (sites ++ Plan.named .field n m none) := by
  refine (Ensures.get fun _ h => h).bind fun d => ?_
  refine Ensures.bind (Q := fun _ => Follows known sites) ?_ fun start => ?_
  · exact (Ensures.get fun _ h => h).bind fun _ => (Ensures.ofExcept fun _ h _ _ => h).bind fun _ =>
      .pure fun _ h => h
  refine (made_addVariable (p := ⟨.field, some n, owner, b.declaringMethod⟩) ?_).bind fun v => ?_
  · rfl
  refine (made_link owns ?_ ?_).bind fun _ => .ofExcept_bind fun place found => ?_
  · exact fun _ => rfl
  · intro o k
    cases k <;> simp [TypeBinding.listed, BindingId.kind]
  have isName := needed_eq_ok.1 found
  have single : Plan.named .field n m none = [⟨.field, n, place, m, none⟩] := by
    rw [Plan.named, isName]
    rfl
  rw [single] at fresh ⊢
  refine (follows_register (s := ⟨.field, n, place, m, none⟩) (Site.fresh_of_nodup fresh) ?_ rfl).bind
    fun _ => .pure fun _ h => h.weaken fun _ => List.mem_cons_of_mem _
  exact ⟨rfl, rfl, fun _ => owns, nofun⟩

/-! ## Sites and the actions that declare them -/

/-- What is said of sites and an action is true where nothing is done, and of what is done in
sequence. -/
structure Composes (P : List Site → DeclareM Unit → Prop) : Prop where
  pure : P [] (pure ())
  bind : ∀ {xs ys : List Site} {a b : DeclareM Unit}, P xs a → P ys b →
    P (xs ++ ys) (a >>= fun _ => b)

namespace Composes

variable {P : List Site → DeclareM Unit → Prop} (composes : Composes P) {e : Enclosure}
  {around : Surroundings}

include composes

theorem forM {α : Type _} {cs : List α} {new : α → List Site} {action : α → DeclareM Unit}
    (h : ∀ c ∈ cs, P (new c) (action c)) : P (cs.flatMap new) (cs.forM action) := by
  induction cs with
  | nil => exact composes.pure
  | cons c cs ih =>
    have rest := ih fun c hc => h c (List.mem_cons_of_mem _ hc)
    exact composes.bind (h c List.mem_cons_self) rest

theorem forM_map {α β : Type _} {cs : List α} {f : α → β} {new : α → List Site}
    {action : β → DeclareM Unit} (h : ∀ c ∈ cs, P (new c) (action (f c))) :
    P (cs.flatMap new) ((cs.map f).forM action) := by
  have mapped : (cs.map f).forM action = cs.forM fun c => action (f c) := List.forM_map
  rw [mapped]
  exact composes.forM h

/-- The pass below a node, from the pass over the named nodes there. -/
theorem inside (h : ∀ c ∈ n.children, P (c.sites e) ((c.fold passStep).here around)) :
    P (n.sitesInside e) ((n.fold passStep).inside around) := by
  rw [Node.sitesInside_eq, Node.fold_eq]
  show P _ (((n.children.map fun c => (c, c.fold passStep)).filter (·.1.isNamed)).forM
    fun each => each.2.here around)
  rw [Node.filter_children_fold]
  exact composes.forM_map fun c hc => h c (List.mem_filter.1 hc).1

theorem insideField {f : Field}
    (h : ∀ c ∈ n.children, P (c.sitesInside e) ((c.fold passStep).inside around)) :
    P (n.sitesOfField f e)
      (insideField (n.children.map fun c => (c, c.fold passStep)) f around) := by
  rw [Node.sitesOfField, Draft.insideField, Node.find?_children_fold _ n fun c => c.field == some f]
  cases found : n.children.find? fun c => c.field == some f with
  | none => exact composes.pure
  | some c => exact h c (List.mem_of_find?_eq_some found)

theorem declareParameters {m : MethodId}
    (parameter : ∀ each, P (Plan.named .localVariable each none (some n))
      (declareVariable each (some m) true))
    (h : ∀ c ∈ n.children, ∀ each ∈ c.children,
      P (each.sitesInside e) ((each.fold passStep).inside around)) :
    P (n.sitesOfParameters e)
      (declareParameters (n.children.map fun c => (c, c.fold passStep)) m around) := by
  rw [Node.sitesOfParameters, Draft.declareParameters,
    Node.find?_children_fold _ n fun c => c.field == some .parameters]
  cases found : n.children.find? fun c => c.field == some .parameters with
  | none => exact composes.pure
  | some list =>
    have parts : (list.fold passStep).parts =
        list.namedChildren.map fun each => (each, (each.fold passStep).inside) := by
      rw [Node.fold_eq]
      show ((list.children.map fun c => (c, c.fold passStep)).filter (·.1.isNamed)).map _ = _
      rw [Node.filter_children_fold, List.map_map]
      rfl
    show P (list.namedChildren.flatMap _) ((list.fold passStep).parts.forM _)
    rw [parts]
    refine composes.forM_map fun each heach => ?_
    have below := h list (List.mem_of_find?_eq_some found) each (List.mem_filter.1 heach).1
    by_cases isParameter : each.kind.isMethodParameter = true
    · simp only [isParameter, if_true]
      exact composes.bind (parameter each) below
    · simp only [isParameter]
      exact below

/-- The pass over the declarators of a field. -/
theorem declarators {new : Node → List Site} {action : Node × Pass → DeclareM Unit}
    (h : ∀ c ∈ n.children, P (new c) (action (c, c.fold passStep))) :
    P (n.declarators.flatMap new) (((n.children.map fun c => (c, c.fold passStep)).filter
      fun each => each.1.field == some .declarator).forM action) := by
  rw [Node.filter_children_fold _ n fun c => c.field == some .declarator]
  exact composes.forM_map fun c hc => h c (List.mem_filter.1 hc).1

end Composes

/-! ## Actions that file sites -/

/-- After whatever is filed, the action files these sites. -/
def Meets (known : List (NodeKey × BindingId)) (new : List Site) (action : DeclareM Unit) : Prop :=
  ∀ sites : List Site, ((sites ++ new).map (·.place.key)).Nodup →
    Ensures (Follows known sites) action fun _ => Follows known (sites ++ new)

namespace Meets

variable {xs ys : List Site} {a b : DeclareM Unit}

protected theorem pure : Meets known [] (pure ()) := fun sites _ => by
  rw [List.append_nil]
  exact .pure fun _ h => h

protected theorem bind (ha : Meets known xs a) (hb : Meets known ys b) :
    Meets known (xs ++ ys) (a >>= fun _ => b) := fun sites nodup => by
  rw [← List.append_assoc] at nodup ⊢
  refine (ha sites ?_).bind fun _ => hb (sites ++ xs) nodup
  rw [List.map_append] at nodup
  exact nodup.sublist (List.sublist_append_left _ _)

protected theorem ite (c : Prop) [Decidable c] (ha : c → Meets known xs a)
    (hb : ¬c → Meets known ys b) :
    Meets known (if c then xs else ys) (if c then a else b) := by
  split
  · next hc => exact ha hc
  · next hc => exact hb hc

theorem composes (known : List (NodeKey × BindingId)) : Composes (Meets known) :=
  ⟨.pure, .bind⟩

protected theorem forM {α : Type _} {cs : List α} {new : α → List Site}
    {action : α → DeclareM Unit} (h : ∀ c ∈ cs, Meets known (new c) (action c)) :
    Meets known (cs.flatMap new) (cs.forM action) :=
  (composes known).forM h

/-- What declares something for the rest of an action, and the rest. -/
theorem declare {α : Type} {s : Site} {action : DeclareM α} {rest : α → DeclareM Unit}
    (id : α → BindingId)
    (first : ∀ sites : List Site, s.place.key ∉ sites.map (·.place.key) →
      Ensures (Follows known sites) action fun x =>
        Follows ((s.place.key, id x) :: known) (sites ++ [s]))
    (later : ∀ x, Meets ((s.place.key, id x) :: known) xs (rest x)) :
    Meets known (s :: xs) (action >>= rest) := fun sites nodup => by
  rw [List.append_cons] at nodup ⊢
  have fresh := nodup
  rw [List.map_append] at fresh
  refine (first sites (Site.fresh_of_nodup (fresh.sublist (List.sublist_append_left _ _)))).bind
    fun x => ((later x) (sites ++ [s]) nodup).weaken (fun _ h => h) fun _ _ h => ?_
  exact h.weaken fun _ => List.mem_cons_of_mem _

end Meets

theorem meets_declareTypeParameters (owner : Option TypeId) (method : Option MethodId)
    (m o : Option Node) :
    Meets known (Plan.typeParameters n m o) (declareTypeParameters n owner method) := by
  unfold Plan.typeParameters declareTypeParameters
  cases n.childOfKind .typeParameters with
  | none => exact .pure
  | some list =>
    dsimp only
    rw [List.map_eq_flatMap]
    refine .forM fun each _ sites nodup => ?_
    exact follows_declareTypeParameter (Site.fresh_of_nodup nodup)

theorem meets_declareField (declaration : Node) {owner : Option TypeId} {m : Option Node}
    (owns : Owns known m owner) :
    Meets known (Plan.named .field n m none) (declareField declaration n owner) :=
  fun _ nodup => (ensures_ownerIsInterface owner).bind fun _ =>
    (follows_declareMember owns nodup).bind fun _ => follows_postpone _ _

theorem meets_declareEnumConstant {owner : Option TypeId} {m : Option Node}
    (owns : Owns known m owner) :
    Meets known (Plan.named .field n m none) (declareEnumConstant n owner) :=
  fun _ nodup => (follows_declareMember owns nodup).bind fun _ => .pure fun _ h => h

theorem meets_declareRecordComponents {owner : TypeId}
    (owns : (n.key, BindingId.type owner) ∈ known) :
    Meets known (Plan.recordComponents n) (declareRecordComponents n owner) := by
  unfold Plan.recordComponents declareRecordComponents
  cases n.childByField .parameters with
  | none => exact .pure
  | some list =>
    refine .forM fun each _ sites nodup => ?_
    exact (follows_declareMember (.some owns) nodup).bind fun _ => follows_postpone _ _

theorem meets_declareVariable {method : Option MethodId} {o : Option Node}
    (holds : Holds known o method) (isParameter : Bool) :
    Meets known (Plan.named .localVariable n none o) (declareVariable n method isParameter) := by
  unfold Plan.named declareVariable
  cases isName : n.nameNode with
  | none => exact .pure
  | some name =>
    intro sites nodup
    refine (Ensures.get fun _ h => h).bind fun d => ?_
    refine (made_addVariable (p := ⟨.localVariable, some n, none, method⟩) rfl).bind fun v => ?_
    refine (follows_register (s := ⟨.localVariable, n, name, none, o⟩) (Site.fresh_of_nodup nodup) ?_
      rfl).bind fun _ => (follows_postpone _ _).weaken (fun _ h => h) fun _ _ h =>
        h.weaken fun _ => List.mem_cons_of_mem _
    exact ⟨rfl, rfl, nofun, fun _ => holds⟩

theorem meets_declareInferredParameter {method : Option MethodId} {o : Option Node}
    (holds : Holds known o method) :
    Meets known [⟨.localVariable, n, n, none, o⟩] (declareInferredParameter n method) := by
  intro sites nodup
  refine (Ensures.get fun _ h => h).bind fun d => ?_
  refine (made_addVariable (p := ⟨.localVariable, some n, none, method⟩) rfl).bind fun v => ?_
  refine (follows_register (s := ⟨.localVariable, n, n, none, o⟩) (Site.fresh_of_nodup nodup) ?_
    rfl).weaken (fun _ h => h) fun _ _ h => h.weaken fun _ => List.mem_cons_of_mem _
  exact ⟨rfl, rfl, nofun, fun _ => holds⟩

theorem meets_declareInMethod {method : Option MethodId} {o : Option Node}
    (holds : Holds known o method) :
    Meets known (Plan.inMethod n o) (declareInMethod n method) := by
  have declares : ∀ isParameter, Meets known (Plan.named .localVariable n none o)
      (declareVariable n method isParameter) := meets_declareVariable holds
  unfold Plan.inMethod
  split
  · next kind =>
    simp only [declareInMethod, kind]
    exact .ite _ (fun _ => declares _) fun _ => .pure
  iterate 3
    next kind =>
      simp only [declareInMethod, kind]
      exact declares _
  · next kind =>
    simp only [declareInMethod, kind]
    exact .ite _ (fun _ => declares _) fun _ => .pure
  · next kind =>
    simp only [declareInMethod, kind]
    rw [List.map_eq_flatMap]
    exact .forM fun name _ => meets_declareInferredParameter holds
  · unfold declareInMethod
    split <;> first | exact .pure | contradiction

/-! ## The pass -/

/-- The nodes of what encloses a node are those of the type and the method that the pass knows. -/
structure Matches (known : List (NodeKey × BindingId)) (e : Enclosure) (around : Surroundings) :
    Prop where
  owner : Owns known e.owner around.owner
  method : Holds known e.method around.method
  inBody : around.inBody = e.inBody

/-- The pass over the nodes below a node files the sites there. -/
def MeetsInside (n : Node) : Prop :=
  ∀ known e around, Matches known e around →
    Meets known (n.sitesInside e) ((n.fold passStep).inside around)

theorem meetsInside_of_children
    (ih : ∀ c ∈ n.children, ∀ known e around, Matches known e around →
      Meets known (c.sites e) ((c.fold passStep).here around)) : MeetsInside n :=
  fun known e around same => (Meets.composes known).inside fun c hc => ih c hc known e around same

/-- The pass over a node and the nodes below it files the sites there, in their order. -/
theorem meets_sites (n : Node) : ∀ known e around, Matches known e around →
    Meets known (n.sites e) ((n.fold passStep).here around) := by
  refine Node.induction_inside (fun n => meetsInside_of_children) (fun n here below => ?_) n
  have self : ∀ c ∈ n.children, MeetsInside c := fun c hc => below c hc c (Node.mem_preorder_self c)
  rw [MeetsInside, Node.fold_eq] at here
  intro known e around same
  rw [Node.sites_eq, Node.fold_eq]
  refine .ite _ (fun _ => ?_) fun _ => .ite _ (fun _ => ?_) fun _ => .ite _ (fun _ => ?_) fun _ =>
    .ite _ (fun _ => ?_) fun _ => .ite _ (fun _ => ?_) fun _ => .ite _ (fun _ => ?_) fun _ => ?_
  · refine .declare .type (fun sites fresh => ?_) fun t => ?_
    · rw [← same.inBody]
      exact follows_declareType same.owner fresh
    have inType : Matches ((n.key, BindingId.type t) :: known) ⟨some n, none, false⟩
        ⟨some t, none, false⟩ := ⟨.some List.mem_cons_self, .none, rfl⟩
    have body := (Meets.composes _).insideField (f := .body) fun c hc => self c hc _ _ _ inType
    refine (meets_declareTypeParameters _ _ _ _).bind ?_
    by_cases isRecord : (n.kind == .recordDeclaration) = true
    · simp only [isRecord, if_true]
      exact (meets_declareRecordComponents List.mem_cons_self).bind body
    · simp only [isRecord]
      exact body
  · refine .declare .type
      (fun sites fresh => follows_declareAnonymous same.owner fresh) fun t => ?_
    exact here _ _ _ ⟨.some List.mem_cons_self, .none, rfl⟩
  · refine .declare .method
      (fun sites fresh => follows_declareMethod same.owner fresh) fun m => ?_
    have inMethod : Matches ((n.key, BindingId.method m) :: known) ⟨e.owner, some n, true⟩
        ⟨around.owner, some m, true⟩ :=
      ⟨rel_mono same.owner fun _ _ => List.mem_cons_of_mem _, .some List.mem_cons_self, rfl⟩
    refine (meets_declareTypeParameters _ _ _ _).bind ?_
    have inside := fun c hc => self c hc _ _ _ inMethod
    have parameters := (Meets.composes _).declareParameters
      (fun each => meets_declareVariable inMethod.method true) fun c hc each heach =>
        below c hc each (Node.mem_preorder_of_child heach (Node.mem_preorder_self each)) _ _ _ inMethod
    exact parameters.bind ((Meets.composes _).insideField inside)
  · refine (Meets.composes known).declarators fun c hc => (meets_declareField n same.owner).bind ?_
    exact self c hc _ _ _ ⟨same.owner, .none, rfl⟩
  · exact (meets_declareEnumConstant same.owner).bind (here _ _ _ ⟨same.owner, same.method, rfl⟩)
  · exact here _ _ _ ⟨same.owner, .none, rfl⟩
  · exact (meets_declareInMethod same.method).bind (here _ _ _ same)

end Draft

namespace Environment

/-- The sites of a file, in the order in which the first pass meets them. -/
def sitesOf (c : Context) : List Site :=
  c.document.root.sitesInside ⟨none, none, false⟩

/-- The first pass files the sites of the file and has no other bindings. -/
theorem declared_follows {c : Context} {d : Draft} (h : declared c = .ok d)
    (nodup : ((sitesOf c).map (·.place.key)).Nodup) : d.Follows [] (sitesOf c) := by
  obtain ⟨sound, store⟩ := readHeader_sound c
  have empty : (readHeader (empty c)).declarations = [] := by
    rw [← List.map_eq_nil_iff (f := Prod.snd), List.eq_nil_iff_forall_not_mem]
    intro b hb
    have has := sound.closed.declared b hb
    rw [store] at has
    cases b <;> exact Nat.not_lt_zero _ has
  have start : ({ readHeader (Environment.empty c) with pending := [] } : Draft).Follows [] [] := by
    refine ⟨⟨?_, fun t k => ?_⟩, fun b => ?_, nofun⟩
    · rw [empty]
      exact .nil
    · rw [bindings, empty]
      show ((readHeader (Environment.empty c)).store.type t).listed k = []
      rw [store]
      cases k <;> rfl
    · rw [bindings, empty]
      show (readHeader (Environment.empty c)).store.Has b ↔ b ∈ []
      rw [store]
      cases b <;> simp [Store.Has]
  have pass : Draft.MeetsInside c.document.root :=
    Draft.meetsInside_of_children fun child _ => Draft.meets_sites child
  exact pass [] ⟨none, none, false⟩ ⟨none, none, false⟩ ⟨.none, .none, rfl⟩ [] nodup _ start _ _
    (declared_eq_ok h)

/-! ## Built environments -/

/-- The second pass changes nothing that a stored binding tells about itself. -/
theorem Outlines.profile_eq {e e' : Environment} (h : e.Outlines e') {b : BindingId}
    (has : e.store.Has b) : e'.store.profile b = e.store.profile b := by
  cases b with
  | type t =>
    have same := h.store.type t has
    have same' : (e'.store.type t).outline.profile = (e.store.type t).outline.profile := by rw [same]
    exact same'
  | «variable» v =>
    have same := congrArg VariableBinding.profile (h.store.variable_eq v)
    exact same
  | method m =>
    have same := congrArg MethodBinding.profile (h.store.method_eq m)
    exact same

theorem Outlines.listed_eq {e e' : Environment} (h : e.Outlines e') (t : TypeId)
    (k : BindingKind) : (e'.store.type t).listed k = (e.store.type t).listed k := by
  by_cases ht : t.index < e.store.types.size
  · have same := congrArg (TypeBinding.listed · k) (h.store.type t ht)
    cases k <;> exact same
  · have bare := h.store.bare t (Nat.le_of_not_lt ht)
    rw [Store.type_of_size_le (Nat.le_of_not_lt ht)]
    cases k <;> simp [TypeBinding.listed, bare.fields, bare.methods, bare.types]

/-- A built environment files the sites of the file, and every binding of the first pass. -/
theorem build_files {c : Context} {e : Environment} (h : build c = .ok e)
    (nodup : ((sitesOf c).map (·.place.key)).Nodup) :
    e.Files (sitesOf c) ∧ ∀ d, declared c = .ok d → ∀ b, d.store.Has b ↔ b ∈ e.bindings := by
  obtain ⟨d, declares, completes⟩ := build_eq_ok h
  have follows := declared_follows declares nodup
  have outlines := outlines_of_completes completes
  have old : ∀ b ∈ d.bindings, e.store.profile b = d.store.profile b :=
    fun b hb => outlines.profile_eq ((follows.stored b).2 hb)
  refine ⟨⟨?_, fun t k => ?_⟩, fun d' declares' b => ?_⟩
  · rw [outlines.declarations]
    refine forall₂_imp_of_mem follows.entries fun s entry he ⟨key, declares⟩ => ⟨key, ?_⟩
    rw [old entry.2 (List.mem_map_of_mem he)]
    exact declares
  · rw [outlines.listed_eq, outlines.bindings, follows.listed]
    refine List.filter_congr fun b hb => ?_
    rw [Store.belongs, Store.belongs, old b hb]
  · rw [declares] at declares'
    cases declares'
    rw [outlines.bindings]
    exact follows.stored b

end Environment

end JavaScope
