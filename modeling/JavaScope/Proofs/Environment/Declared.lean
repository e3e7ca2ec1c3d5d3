import JavaScope.Environment.Declare
import JavaScope.Proofs.Action
import JavaScope.Proofs.Binding.Store
import JavaScope.Proofs.Tree

/-!
# What the first pass declares

The invariants of environments. No link dangles; the table files every binding once; a field belongs
to the type that lists it; and enum constants are public and filed under the name of their node. The
first pass keeps all of them at every declaration, and it makes no type that is derived from others.
-/

namespace JavaScope

/-! ## Invariants -/

/-- The variable is a field of the type, and public if it is an enum constant. -/
structure VariableBinding.IsMemberOf (b : VariableBinding) (t : TypeId) : Prop where
  field : b.isField = true
  owner : b.declaringClass = some t
  constant : b.isEnumConstant = true → b.modifiers.isPublic = true

/-- The key is the one of the name of an enum constant below the root. -/
def IsConstantName (root : Node) (key : NodeKey) : Prop :=
  ∃ n ∈ root.preorder, n.kind = .enumConstant ∧ ∃ name, n.nameNode = some name ∧ name.key = key

/-- The environment refers only to types that it has. -/
structure Environment.Closed (e : Environment) : Prop where
  store : e.store.Closed
  declared : ∀ b ∈ e.bindings, e.store.Has b
  types : ∀ t ∈ e.types, e.store.Has (.type t)
  recovered : ∀ entry ∈ e.recovered, e.store.Has (.type entry.2)
  derived : ∀ entry ∈ e.derived, e.store.Has (.type entry.2)

/-- The environment is a consistent one of a context. -/
structure Environment.Sound (c : Context) (e : Environment) : Prop where
  context : e.context = c
  closed : e.Closed
  distinct : e.bindings.Nodup
  fields : ∀ t, ∀ v ∈ (e.store.type t).declaredFields,
    e.store.Has (.variable v) ∧ (e.store.variable v).IsMemberOf t
  constants : ∀ key v, (key, .variable v) ∈ e.declarations →
    (e.store.variable v).isEnumConstant = true → IsConstantName c.document.root key

/-- The type is not derived from others: it is neither a use of a generic type nor an array. -/
structure TypeBinding.IsUnderived (b : TypeBinding) : Prop where
  generic : b.genericType = none
  array : b.isArray = false

namespace Draft

/-- Every declaration waits only once for the second pass, and is in the store. -/
structure Waits (d : Draft) : Prop where
  once : (d.pending.map (·.1)).Nodup
  has : ∀ b ∈ d.pending.map (·.1), d.store.Has b

/-- The draft is sound, without types that are derived from others, and has at least `n` types. -/
structure SoundTo (c : Context) (n : Nat) (d : Draft) : Prop where
  sound : d.toEnvironment.Sound c
  plain : ∀ t, (d.store.type t).IsUnderived
  size : n ≤ d.store.types.size
  waits : d.Waits

/-- The binding is in the store, but does not wait for the second pass yet. -/
structure Idle (b : BindingId) (d : Draft) : Prop where
  has : d.store.Has b
  idle : b ∉ d.pending.map (·.1)

/-- The binding is in the store, but neither in the table nor waiting. -/
structure Unfiled (b : BindingId) (d : Draft) : Prop extends Idle b d where
  fresh : b ∉ d.bindings

variable {c : Context} {n : Nat} {d : Draft}

theorem Waits.withStore {s : Store} (h : d.Waits) (has : ∀ b, d.store.Has b → s.Has b) :
    (d.withStore s).Waits :=
  ⟨h.once, fun b hb => has b (h.has b hb)⟩

theorem SoundTo.mono {m : Nat} (h : d.SoundTo c n) (hm : m ≤ n) : d.SoundTo c m :=
  { h with size := Nat.le_trans hm h.size }

/-! ## Changes of a draft -/

theorem mem_putEntry {κ α : Type} [DecidableEq κ] {key : κ} {value : α} {table : List (κ × α)}
    {entry : κ × α} (h : entry ∈ putEntry key value table) :
    entry = (key, value) ∨ entry ∈ table := by
  induction table with
  | nil => simpa [putEntry] using h
  | cons first rest ih =>
    obtain ⟨k, a⟩ := first
    by_cases hk : k = key
    · simp only [putEntry, hk, if_true, List.mem_cons] at h ⊢
      exact h.imp_right .inr
    · simp only [putEntry, hk, if_false, List.mem_cons] at h ⊢
      rcases h with h | h
      · exact .inr (.inl h)
      · exact (ih h).imp_right .inr

theorem nodup_putEntry {κ α : Type} [DecidableEq κ] (key : κ) {value : α} {table : List (κ × α)}
    (h : (table.map (·.2)).Nodup) (fresh : value ∉ table.map (·.2)) :
    ((putEntry key value table).map (·.2)).Nodup := by
  induction table with
  | nil => simp [putEntry]
  | cons first rest ih =>
    obtain ⟨k, a⟩ := first
    simp only [List.map_cons, List.nodup_cons, List.mem_cons, not_or] at h fresh
    by_cases hk : k = key
    · simp only [putEntry, hk, if_true, List.map_cons, List.nodup_cons]
      exact ⟨fresh.2, h.2⟩
    · simp only [putEntry, hk, if_false, List.map_cons, List.nodup_cons]
      refine ⟨fun ha => ?_, ih h.2 fresh.2⟩
      obtain ⟨entry, member, rfl⟩ := List.mem_map.1 ha
      rcases mem_putEntry member with rfl | member
      · exact fresh.1 rfl
      · exact h.1 (List.mem_map_of_mem member)

end Draft

namespace Environment

variable {c : Context} {e : Environment}

/-- A sound environment stays sound with a store that has all its bindings and the same constants,
and that lists only members as fields. -/
theorem Sound.setStore {s : Store} (h : e.Sound c) (closed : s.Closed)
    (has : ∀ b, e.store.Has b → s.Has b)
    (fields : ∀ t, ∀ v ∈ (s.type t).declaredFields,
      s.Has (.variable v) ∧ (s.variable v).IsMemberOf t)
    (same : ∀ v, e.store.Has (.variable v) →
      (s.variable v).isEnumConstant = (e.store.variable v).isEnumConstant) :
    Sound c { e with store := s } where
  context := h.context
  closed := {
    store := closed
    declared := fun b hb => has b (h.closed.declared b hb)
    types := fun t ht => has _ (h.closed.types t ht)
    recovered := fun entry he => has _ (h.closed.recovered entry he)
    derived := fun entry he => has _ (h.closed.derived entry he) }
  distinct := h.distinct
  fields := fields
  constants key v hv hc := by
    have hhas := h.closed.declared _ (List.mem_map_of_mem hv)
    exact h.constants key v hv (by rw [← same v hhas]; exact hc)

end Environment

namespace Draft

variable {c : Context} {n : Nat}

theorem ensures_addType {b : TypeBinding} (links : ∀ u ∈ b.links, u.index < n)
    (plain : b.IsUnderived) (fields : b.declaredFields = []) :
    Ensures (SoundTo c n) (addType b) fun t d =>
      n ≤ t.index ∧ d.SoundTo c (t.index + 1) ∧ d.Unfiled (.type t) := by
  refine .modifyGet fun d h => ?_
  have has : ∀ b', d.store.Has b' → (d.store.addType b).2.Has b' :=
    fun b' hb' => hb'.mono (by simp) (Nat.le_refl _) (Nat.le_refl _)
  refine ⟨h.size, ⟨?_, ?_, ?_, h.waits.withStore has⟩, ⟨⟨?_, ?_⟩, ?_⟩⟩
  · refine h.sound.setStore
      (h.sound.closed.store.addType fun u hu => Nat.lt_of_lt_of_le (links u hu) h.size) has ?_ ?_
    · intro t v hv
      rcases Store.type_addType_cases d.store b t with ⟨-, ht⟩ | ⟨-, ht⟩ | ⟨-, ht⟩ <;> rw [ht] at hv
      · exact h.sound.fields t v hv
      · rw [fields] at hv
        cases hv
      · cases hv
    · exact fun v _ => rfl
  · intro t
    show ((d.store.addType b).2.type t).IsUnderived
    rcases Store.type_addType_cases d.store b t with ⟨-, ht⟩ | ⟨-, ht⟩ | ⟨-, ht⟩ <;> rw [ht]
    · exact h.plain t
    · exact plain
    · exact ⟨rfl, rfl⟩
  · show d.store.types.size + 1 ≤ (d.store.addType b).2.types.size
    exact Nat.le_of_eq (by simp)
  · show d.store.types.size < (d.store.addType b).2.types.size
    rw [Store.size_addType]
    omega
  · intro hb
    exact Nat.lt_irrefl _ (h.waits.has _ hb)
  · intro hb
    exact Nat.lt_irrefl _ (h.sound.closed.declared _ hb)

theorem ensures_addVariable {b : VariableBinding} (links : ∀ u ∈ b.links, u.index < n) :
    Ensures (SoundTo c n) (addVariable b) fun v d =>
      d.SoundTo c n ∧ d.Unfiled (.variable v) ∧ d.store.variable v = b := by
  refine .modifyGet fun d h => ?_
  have has : ∀ b', d.store.Has b' → (d.store.addVariable b).2.Has b' :=
    fun b' hb' => hb'.mono (Nat.le_refl _) (by simp) (Nat.le_refl _)
  refine ⟨⟨?_, h.plain, h.size, h.waits.withStore has⟩, ⟨⟨?_, ?_⟩, ?_⟩, ?_⟩
  · refine h.sound.setStore
      (h.sound.closed.store.addVariable fun u hu => Nat.lt_of_lt_of_le (links u hu) h.size) has ?_ ?_
    · intro t v hv
      obtain ⟨hhas, hmember⟩ := h.sound.fields t v hv
      refine ⟨has _ hhas, ?_⟩
      rw [Store.variable_addVariable_of_has hhas]
      exact hmember
    · intro v hv
      rw [Store.variable_addVariable_of_has hv]
  · show d.store.vars.size < (d.store.addVariable b).2.vars.size
    rw [Store.size_addVariable]
    omega
  · intro hb
    exact Nat.lt_irrefl _ (h.waits.has _ hb)
  · intro hb
    exact Nat.lt_irrefl _ (h.sound.closed.declared _ hb)
  · exact Store.variable_addVariable_self d.store b

theorem ensures_addMethod {b : MethodBinding} (links : ∀ u ∈ b.links, u.index < n) :
    Ensures (SoundTo c n) (addMethod b) fun m d =>
      d.SoundTo c n ∧ d.Unfiled (.method m) := by
  refine .modifyGet fun d h => ?_
  have has : ∀ b', d.store.Has b' → (d.store.addMethod b).2.Has b' :=
    fun b' hb' => hb'.mono (Nat.le_refl _) (Nat.le_refl _) (by simp)
  refine ⟨⟨?_, h.plain, h.size, h.waits.withStore has⟩, ⟨⟨?_, ?_⟩, ?_⟩⟩
  · exact h.sound.setStore
      (h.sound.closed.store.addMethod fun u hu => Nat.lt_of_lt_of_le (links u hu) h.size) has
      h.sound.fields fun _ _ => rfl
  · show d.store.methods.size < (d.store.addMethod b).2.methods.size
    rw [Store.size_addMethod]
    omega
  · intro hb
    exact Nat.lt_irrefl _ (h.waits.has _ hb)
  · intro hb
    exact Nat.lt_irrefl _ (h.sound.closed.declared _ hb)

/-- Filing a new binding; the key of an enum constant is the one of its name. -/
theorem SoundTo.register {d : Draft} {place : Node} {b : BindingId} (h : d.SoundTo c n)
    (unfiled : d.Unfiled b)
    (constant : ∀ v, b = .variable v → (d.store.variable v).isEnumConstant = true →
      IsConstantName c.document.root place.key) :
    SoundTo c n { d with declarations := putEntry place.key b d.declarations } where
  sound := {
    context := h.sound.context
    closed := { h.sound.closed with
      declared := fun b' hb' => by
        obtain ⟨entry, member, rfl⟩ := List.mem_map.1 hb'
        rcases mem_putEntry member with rfl | member
        · exact unfiled.has
        · exact h.sound.closed.declared _ (List.mem_map_of_mem member) }
    distinct := nodup_putEntry place.key h.sound.distinct unfiled.fresh
    fields := h.sound.fields
    constants := fun key v member hv => by
      rcases mem_putEntry member with heq | member
      · cases heq
        exact constant v rfl hv
      · exact h.sound.constants key v member hv }
  plain := h.plain
  size := h.size
  waits := ⟨h.waits.once, h.waits.has⟩

/-- A change of a type that does not make it a derived one, and lists only members as fields. -/
theorem SoundTo.modifyType {d : Draft} {t : TypeId} {change : TypeBinding → TypeBinding}
    (h : d.SoundTo c n)
    (links : ∀ b, ∀ u ∈ (change b).links, u ∈ b.links ∨ u.index < n)
    (plain : ∀ b, b.IsUnderived → (change b).IsUnderived)
    (fields : ∀ b, ∀ v ∈ (change b).declaredFields, v ∈ b.declaredFields ∨
      (d.store.Has (.variable v) ∧ (d.store.variable v).IsMemberOf t)) :
    SoundTo c n (d.withStore (d.store.modifyType t change)) where
  sound := by
    refine h.sound.setStore (h.sound.closed.store.modifyType fun b u hu =>
      (links b u hu).imp_right fun hu => Nat.lt_of_lt_of_le hu h.size) ?_ ?_ fun _ _ => rfl
    · exact fun b' hb' => hb'.mono (by simp) (Nat.le_refl _) (Nat.le_refl _)
    · intro u v hv
      rcases Store.type_modifyType_cases d.store t change u with hu | ⟨hut, -, hu⟩ <;> rw [hu] at hv
      · exact h.sound.fields u v hv
      · rcases fields _ v hv with hv | hv
        · exact h.sound.fields u v hv
        · obtain ⟨i⟩ := u
          obtain ⟨j⟩ := t
          cases hut
          exact hv
  plain u := by
    show ((d.store.modifyType t change).type u).IsUnderived
    rcases Store.type_modifyType_cases d.store t change u with hu | ⟨-, -, hu⟩ <;> rw [hu]
    · exact h.plain u
    · exact plain _ (h.plain u)
  size := by
    show n ≤ (d.store.modifyType t change).types.size
    rw [Store.size_modifyType]
    exact h.size
  waits := h.waits.withStore fun b hb => hb.mono (by simp) (Nat.le_refl _) (Nat.le_refl _)

/-! ## Declarations -/

theorem ensures_ownerIsInterface {P : Draft → Prop} (owner : Option TypeId) :
    Ensures P (ownerIsInterface owner) fun _ => P :=
  (Ensures.get fun _ h => h).bind fun _ => .pure fun _ h => h

theorem ensures_postpone (b : BindingId) (place : Node) :
    Ensures (fun d => d.SoundTo c n ∧ d.Idle b) (postpone b place) fun _ => SoundTo c n := by
  refine .modify fun d h => { h.1 with waits := ⟨?_, fun b' hb' => ?_⟩ }
  · rw [List.map_append, List.nodup_append]
    refine ⟨h.1.waits.once, List.pairwise_singleton _ _, fun b' hb' b'' hb'' => ?_⟩
    rw [List.mem_singleton.1 hb'']
    rintro rfl
    exact h.2.idle hb'
  · rcases List.mem_append.1 (List.map_append ▸ hb') with hb' | hb'
    · exact h.1.waits.has b' hb'
    · rw [List.mem_singleton.1 hb']
      exact h.2.has

theorem Unfiled.withStore {d : Draft} {b : BindingId} {s : Store} (h : d.Unfiled b)
    (has : d.store.Has b → s.Has b) : (d.withStore s).Unfiled b :=
  ⟨⟨has h.has, h.idle⟩, h.fresh⟩

/-- A change of the enclosing type that adds links and members which are there. -/
theorem ensures_modifyOwner {owner : Option TypeId} {change : TypeBinding → TypeBinding}
    {Q : Draft → Prop} (hQ : ∀ d t, Q d → Q (d.withStore (d.store.modifyType t change)))
    (links : ∀ b, ∀ u ∈ (change b).links, u ∈ b.links ∨ u.index < n)
    (plain : ∀ b, b.IsUnderived → (change b).IsUnderived)
    (fields : ∀ d t, Q d → owner = some t → ∀ b, ∀ v ∈ (change b).declaredFields,
      v ∈ b.declaredFields ∨
        (d.store.Has (.variable v) ∧ (d.store.variable v).IsMemberOf t)) :
    Ensures (fun d => d.SoundTo c n ∧ Q d) (modifyOwner owner change)
      fun _ d => d.SoundTo c n ∧ Q d := by
  cases owner with
  | none => exact .pure fun d h => h
  | some t =>
    exact .modify fun d h =>
      ⟨h.1.modifyType links plain (fields d t h.2 rfl), hQ d t h.2⟩

theorem ensures_register {place : Node} {b : BindingId} :
    Ensures (fun d => d.SoundTo c n ∧ d.Unfiled b ∧
        ∀ v, b = .variable v → (d.store.variable v).isEnumConstant = true →
          IsConstantName c.document.root place.key)
      (register place b) fun _ d => d.SoundTo c n ∧ d.Idle b :=
  .modify fun _ h => ⟨h.1.register h.2.1 h.2.2, h.2.1.has, h.2.1.idle⟩

theorem ensures_fileType (place : Node) (t : TypeId) :
    Ensures (fun d => d.SoundTo c n ∧ d.Unfiled (.type t)) (register place (.type t))
      fun _ d => d.SoundTo c n ∧ d.Idle (.type t) :=
  ensures_register.weaken (fun _ h => ⟨h.1, h.2, by rintro _ ⟨⟩⟩) fun _ _ h => h

/-- The type is in the store and waits for being filed. -/
def AwaitsType (c : Context) (t : TypeId) (d : Draft) : Prop :=
  d.SoundTo c (t.index + 1) ∧ d.Unfiled (.type t)

theorem ensures_linkType {owner : Option TypeId} {t : TypeId}
    {change : TypeBinding → TypeBinding}
    (links : ∀ b, ∀ u ∈ (change b).links, u ∈ b.links ∨ u = t)
    (plain : ∀ b, b.IsUnderived → (change b).IsUnderived)
    (fields : ∀ b, (change b).declaredFields = b.declaredFields) :
    Ensures (AwaitsType c t) (modifyOwner owner change) fun _ => AwaitsType c t := by
  refine ensures_modifyOwner ?_ ?_ plain ?_
  · exact fun d u h => h.withStore fun hhas => hhas.mono (by simp) (Nat.le_refl _) (Nat.le_refl _)
  · intro b u hu
    apply (links b u hu).imp_right
    intro heq
    rw [heq]
    exact Nat.lt_succ_self _
  · intro d u _ _ b v hv
    rw [fields] at hv
    exact .inl hv

theorem isArray_typeKindOf (kind : Kind) : (typeKindOf kind == .array) = false := by
  cases kind <;> rfl

theorem ensures_declareType (node : Node) (around : Surroundings)
    (owner : ∀ t ∈ around.owner, t.index < n) :
    Ensures (SoundTo c n) (declareType node around) fun t d =>
      n ≤ t.index ∧ d.SoundTo c (t.index + 1) := by
  refine (Ensures.get fun _ h => h).bind fun d₀ => ?_
  refine (ensures_ownerIsInterface _).bind fun isInterface => ?_
  refine (ensures_addType (by simpa [TypeBinding.links] using owner)
    (by exact ⟨rfl, isArray_typeKindOf node.kind⟩) rfl).bind fun t => .of_fact fun older => ?_
  have file : Ensures (AwaitsType c t)
      (do register node (.type t); postpone (.type t) node; return t)
      fun t d => n ≤ t.index ∧ d.SoundTo c (t.index + 1) :=
    (ensures_fileType node t).bind fun _ => (ensures_postpone _ _).bind fun _ =>
      .pure fun _ h => ⟨older, h⟩
  have top : Ensures (AwaitsType c t)
      (modify fun d => { d with types := d.types ++ [t] } : DeclareM Unit)
      fun _ => AwaitsType c t := by
    refine .modify fun d h => ⟨{ h.1 with
      sound := { h.1.sound with closed := ?_ }
      waits := ⟨h.1.waits.once, h.1.waits.has⟩ }, ⟨h.2.has, h.2.idle⟩, h.2.fresh⟩
    refine { h.1.sound.closed with types := fun u hu => ?_ }
    rcases List.mem_append.1 hu with hu | hu
    · exact h.1.sound.closed.types u hu
    · rw [List.mem_singleton.1 hu]
      exact h.2.has
  dsimp only
  have tail := Ensures.ite (c := around.owner.isNone = true) (fun _ => top.bind fun _ => file)
    fun _ => file
  refine .ite (fun _ => Ensures.bind (ensures_linkType ?_ ?_ ?_) fun _ => tail) fun _ => tail
  · intro b u hu
    simp only [TypeBinding.links, List.mem_append, List.mem_singleton] at hu ⊢
    grind
  · exact fun _ h => ⟨h.generic, h.array⟩
  · exact fun _ => rfl

theorem ensures_declareAnonymous (node : Node) (around : Surroundings)
    (owner : ∀ t ∈ around.owner, t.index < n) :
    Ensures (SoundTo c n) (declareAnonymous node around) fun t d =>
      n ≤ t.index ∧ d.SoundTo c (t.index + 1) := by
  refine (Ensures.get fun _ h => h).bind fun d₀ => ?_
  refine (ensures_addType (by simpa [TypeBinding.links] using owner) ⟨rfl, rfl⟩ rfl).bind fun t =>
    .of_fact fun older => ?_
  exact (ensures_fileType node t).bind fun _ => (ensures_postpone _ _).bind fun _ =>
    .pure fun _ h => ⟨older, h⟩

/-- A change of a method that adds links which are there. -/
theorem SoundTo.modifyMethod {d : Draft} {m : MethodId} {change : MethodBinding → MethodBinding}
    (h : d.SoundTo c n) (links : ∀ b, ∀ u ∈ (change b).links, u ∈ b.links ∨ u.index < n) :
    SoundTo c n (d.withStore (d.store.modifyMethod m change)) where
  sound := by
    refine h.sound.setStore (h.sound.closed.store.modifyMethod fun b u hu =>
      (links b u hu).imp_right fun hu => Nat.lt_of_lt_of_le hu h.size) ?_ h.sound.fields
      fun _ _ => rfl
    exact fun b' hb' => hb'.mono (Nat.le_refl _) (Nat.le_refl _) (by simp)
  plain := h.plain
  size := h.size
  waits := h.waits.withStore fun b hb => hb.mono (Nat.le_refl _) (Nat.le_refl _) (by simp)

theorem ensures_declareTypeParameter (node : Node) (owner : Option TypeId)
    (method : Option MethodId) (hasOwner : ∀ t ∈ owner, t.index < n) :
    Ensures (SoundTo c n) (declareTypeParameter node owner method) fun _ => SoundTo c n := by
  refine (Ensures.get fun _ h => h).bind fun d₀ => ?_
  refine (ensures_addType ?_ ⟨rfl, rfl⟩ rfl).bind fun t => .of_fact fun older => ?_
  · have hlinks : ∀ t ∈ (if method.isNone then owner else none), t.index < n := by
      split
      · exact hasOwner
      · exact nofun
    simpa [TypeBinding.links] using hlinks
  have file : Ensures (AwaitsType c t)
      (do register node (.type t); postpone (.type t) node) fun _ => SoundTo c n :=
    (ensures_fileType node t).bind fun _ => (ensures_postpone _ _).weaken (fun _ h => h)
      fun _ _ h => h.mono (Nat.le_succ_of_le older)
  cases method with
  | some m =>
    refine Ensures.bind (.modify fun d h => ⟨h.1.modifyMethod ?_, h.2.withStore ?_⟩) fun _ => file
    · intro b u hu
      simp only [MethodBinding.links, List.mem_append, List.mem_singleton] at hu ⊢
      have : t.index < t.index + 1 := Nat.lt_succ_self _
      grind
    · exact fun hhas => hhas.mono (Nat.le_refl _) (Nat.le_refl _) (by simp)
  | none =>
    refine Ensures.bind (ensures_linkType ?_ ?_ ?_) fun _ => file
    · intro b u hu
      simp only [TypeBinding.links, List.mem_append, List.mem_singleton] at hu ⊢
      grind
    · exact fun _ h => ⟨h.generic, h.array⟩
    · exact fun _ => rfl

theorem ensures_declareTypeParameters (node : Node) (owner : Option TypeId)
    (method : Option MethodId) (hasOwner : ∀ t ∈ owner, t.index < n) :
    Ensures (SoundTo c n) (declareTypeParameters node owner method) fun _ => SoundTo c n := by
  unfold declareTypeParameters
  split
  · exact .forM fun each _ => ensures_declareTypeParameter each owner method hasOwner
  · exact .pure fun _ h => h

theorem ensures_declareMethod (node : Node) (owner : Option TypeId)
    (hasOwner : ∀ t ∈ owner, t.index < n) :
    Ensures (SoundTo c n) (declareMethod node owner) fun _ => SoundTo c n := by
  refine (Ensures.get fun _ h => h).bind fun d₀ => (ensures_ownerIsInterface _).bind fun _ => ?_
  refine (ensures_addMethod ?_).bind fun m => ?_
  · simpa [MethodBinding.links] using hasOwner
  refine (ensures_modifyOwner ?_ ?_ ?_ ?_).bind fun _ => ?_
  · exact fun d t h => h.withStore fun hhas => hhas
  · exact fun b u hu => .inl hu
  · exact fun _ h => ⟨h.generic, h.array⟩
  · exact fun d t _ _ b v hv => .inl hv
  refine (ensures_register.weaken (fun d h => ⟨h.1, h.2, ?_⟩) fun _ _ h => h).bind fun _ => ?_
  · rintro _ ⟨⟩
  exact (ensures_postpone _ _).bind fun _ => .pure fun _ h => h

/-- A variable of a type is filed as its member, if a constant then under the name of one. -/
theorem ensures_declareMember (named node : Node) (owner : Option TypeId) {b : VariableBinding}
    (hasOwner : ∀ t ∈ owner, t.index < n) (links : ∀ u ∈ b.links, u.index < n)
    (isPublic : b.isEnumConstant = true → b.modifiers.isPublic = true)
    (isConstant : b.isEnumConstant = true → named ∈ c.document.root.preorder ∧ named.kind = .enumConstant) :
    Ensures (SoundTo c n) (declareMember named node owner b) fun v d =>
      d.SoundTo c n ∧ d.Idle (.variable v) := by
  refine (Ensures.get fun _ h => h).bind fun d₀ => ?_
  refine Ensures.bind (Q := fun _ => SoundTo c n) ?_ fun start => ?_
  · exact (Ensures.get fun _ h => h).bind fun d => (Ensures.ofExcept fun _ h _ _ => h).bind fun _ =>
      .pure fun _ h => h
  refine (ensures_addVariable ?_).bind fun v => ?_
  · intro u hu
    simp only [VariableBinding.links, List.mem_append, Option.mem_toList] at hu links
    exact hu.elim (fun h => links u (.inl h)) (hasOwner u)
  refine (ensures_modifyOwner ?_ ?_ ?_ ?_).bind fun _ => ?_
  · exact fun d t h => ⟨h.1.withStore fun hhas => hhas, h.2⟩
  · exact fun b u hu => .inl hu
  · exact fun _ h => ⟨h.generic, h.array⟩
  · rintro d t ⟨unfiled, added⟩ rfl o w hw
    apply (List.mem_append.1 hw).imp_right
    intro hw
    rw [List.mem_singleton.1 hw, added]
    exact ⟨unfiled.has, rfl, rfl, isPublic⟩
  refine Ensures.bind (Q := fun place d => named.nameNode = some place ∧ d.SoundTo c n ∧
    d.Unfiled (.variable v) ∧ (d.store.variable v).isEnumConstant = b.isEnumConstant) ?_
    fun place => .of_fact fun isName => ?_
  · refine .ofExcept fun d h place needs => ⟨needed_eq_ok.1 needs, h.1, h.2.1, ?_⟩
    rw [h.2.2]
  refine (ensures_register.weaken (fun d h => ⟨h.1, h.2.1, ?_⟩) fun _ _ h => h).bind fun _ =>
    .pure fun _ h => h
  rintro _ ⟨⟩ constant
  rw [h.2.2] at constant
  obtain ⟨member, kind⟩ := isConstant constant
  exact ⟨named, member, kind, place, isName, rfl⟩

theorem ensures_declareField (declaration node : Node) (owner : Option TypeId)
    (hasOwner : ∀ t ∈ owner, t.index < n) :
    Ensures (SoundTo c n) (declareField declaration node owner) fun _ => SoundTo c n := by
  refine (ensures_ownerIsInterface owner).bind fun _ => ?_
  refine (ensures_declareMember node node owner hasOwner ?_ ?_ ?_).bind fun v =>
    ensures_postpone _ _
  · exact nofun
  · exact nofun
  · exact nofun

theorem ensures_declareEnumConstant {node : Node} (owner : Option TypeId)
    (hasOwner : ∀ t ∈ owner, t.index < n) (member : node ∈ c.document.root.preorder)
    (kind : node.kind = .enumConstant) :
    Ensures (SoundTo c n) (declareEnumConstant node owner) fun _ => SoundTo c n := by
  refine (ensures_declareMember node node owner hasOwner ?_ ?_ ?_).bind fun _ => .pure fun _ h => h.1
  · simpa [VariableBinding.links] using hasOwner
  · intro _
    show (Modifiers.public ∪ .static ∪ .final).isPublic = true
    decide
  · exact fun _ => ⟨member, kind⟩

theorem ensures_declareRecordComponents (node : Node) (owner : TypeId)
    (hasOwner : owner.index < n) :
    Ensures (SoundTo c n) (declareRecordComponents node owner) fun _ => SoundTo c n := by
  unfold declareRecordComponents
  split
  · refine .forM fun each _ => ?_
    refine (ensures_declareMember each each (some owner) ?_ ?_ ?_ ?_).bind fun v =>
      ensures_postpone _ _
    · rintro _ ⟨⟩
      exact hasOwner
    · exact nofun
    · exact nofun
    · exact nofun
  · exact .pure fun _ h => h

/-- A new variable that is no constant may be filed anywhere. -/
theorem ensures_addLocal {b : VariableBinding} (place : Node)
    (links : ∀ u ∈ b.links, u.index < n) (isLocal : b.isEnumConstant = false) :
    Ensures (SoundTo c n) (addVariable b) fun v d => d.SoundTo c n ∧
      d.Unfiled (.variable v) ∧ ∀ w, BindingId.variable v = .variable w →
        (d.store.variable w).isEnumConstant = true → IsConstantName c.document.root place.key := by
  refine (ensures_addVariable links).weaken (fun _ h => h) fun v d h => ⟨h.1, h.2.1, ?_⟩
  rintro _ ⟨⟩ constant
  rw [h.2.2, isLocal] at constant
  cases constant

theorem ensures_declareVariable (node : Node) (method : Option MethodId) (isParameter : Bool) :
    Ensures (SoundTo c n) (declareVariable node method isParameter) fun _ => SoundTo c n := by
  unfold declareVariable
  split
  · exact .pure fun _ h => h
  · next name _ =>
    refine (Ensures.get fun _ h => h).bind fun d₀ => (ensures_addLocal name ?_ ?_).bind fun v => ?_
    · exact nofun
    · rfl
    · exact ensures_register.bind fun _ => ensures_postpone _ _

theorem ensures_declareInferredParameter (name : Node) (method : Option MethodId) :
    Ensures (SoundTo c n) (declareInferredParameter name method) fun _ => SoundTo c n := by
  refine (Ensures.get fun _ h => h).bind fun d₀ => (ensures_addLocal name ?_ ?_).bind fun v => ?_
  · exact nofun
  · rfl
  · exact ensures_register.weaken (fun _ h => h) fun _ _ h => h.1

theorem ensures_declareInMethod (node : Node) (method : Option MethodId) :
    Ensures (SoundTo c n) (declareInMethod node method) fun _ => SoundTo c n := by
  have none : Ensures (SoundTo c n) (pure ()) fun _ => SoundTo c n := .pure fun _ h => h
  unfold declareInMethod
  split
  · exact .ite (fun _ => ensures_declareVariable _ _ _) fun _ => none
  iterate 3 exact ensures_declareVariable _ _ _
  · exact .ite (fun _ => ensures_declareVariable _ _ _) fun _ => none
  · exact .forM fun name _ => ensures_declareInferredParameter name method
  · exact none

/-! ## The pass -/

/-- The first pass over a node keeps drafts sound, whatever type encloses the node. -/
structure Pass.KeepsSound (c : Context) (pass : Pass) : Prop where
  here : ∀ n around, (∀ t ∈ around.owner, t.index < n) →
    Ensures (SoundTo c n) (pass.here around) fun _ => SoundTo c n
  inside : ∀ n around, (∀ t ∈ around.owner, t.index < n) →
    Ensures (SoundTo c n) (pass.inside around) fun _ => SoundTo c n
  parts : ∀ part ∈ pass.parts, ∀ n around, (∀ t ∈ around.owner, t.index < n) →
    Ensures (SoundTo c n) (part.2 around) fun _ => SoundTo c n

theorem ensures_insideField {below : List (Node × Pass)}
    (ih : ∀ each ∈ below, each.2.KeepsSound c) (f : Field) (around : Surroundings)
    (owner : ∀ t ∈ around.owner, t.index < n) :
    Ensures (SoundTo c n) (insideField below f around) fun _ => SoundTo c n := by
  unfold insideField
  split
  · next h => exact (ih _ (List.mem_of_find?_eq_some h)).inside n around owner
  · exact .pure fun _ h => h

theorem ensures_declareParameters {below : List (Node × Pass)}
    (ih : ∀ each ∈ below, each.2.KeepsSound c) (m : MethodId) (around : Surroundings)
    (owner : ∀ t ∈ around.owner, t.index < n) :
    Ensures (SoundTo c n) (declareParameters below m around) fun _ => SoundTo c n := by
  unfold declareParameters
  split
  · next h =>
    refine .forM fun part hpart => ?_
    have inside := (ih _ (List.mem_of_find?_eq_some h)).parts part hpart n around owner
    exact .ite (fun _ => (ensures_declareVariable _ _ _).bind fun _ => inside) fun _ => inside
  · exact .pure fun _ h => h

theorem passStep_keepsSound {node : Node} (member : node ∈ c.document.root.preorder)
    {below : List (Node × Pass)} (ih : ∀ each ∈ below, each.2.KeepsSound c) :
    (passStep node below).KeepsSound c := by
  have inside : ∀ n around, (∀ t ∈ around.owner, t.index < n) →
      Ensures (SoundTo c n) ((passStep node below).inside around) fun _ => SoundTo c n :=
    fun n around owner => .forM fun each heach =>
      (ih each (List.mem_filter.1 heach).1).here n around owner
  have back : ∀ {n m : Nat} {α : Type} {action : DeclareM α}, n ≤ m →
      Ensures (SoundTo c m) action (fun _ => SoundTo c m) →
      Ensures (SoundTo c m) action fun _ => SoundTo c n :=
    fun le h => h.weaken (fun _ h => h) fun _ _ h => h.mono le
  have inType : ∀ t : TypeId, ∀ u ∈ some t, u.index < t.index + 1 := by
    rintro t _ ⟨⟩
    exact Nat.lt_succ_self _
  refine ⟨fun n around owner => ?_, inside, fun part hpart n around owner => ?_⟩
  · refine .ite (fun _ => ?_) fun _ => .ite (fun _ => ?_) fun _ => .ite (fun _ => ?_) fun _ =>
      .ite (fun _ => ?_) fun _ => .ite (fun isConstant => ?_) fun _ => .ite (fun _ => ?_) fun _ => ?_
    · refine (ensures_declareType node around owner).bind fun t => .of_fact fun older => ?_
      have body := ensures_insideField ih .body ⟨some t, none, false⟩ (inType t)
      refine back (Nat.le_succ_of_le older)
        ((ensures_declareTypeParameters _ _ _ (inType t)).bind fun _ => ?_)
      refine .ite (fun _ => Ensures.bind ?_ fun _ => body) fun _ => body
      exact ensures_declareRecordComponents node t (Nat.lt_succ_self _)
    · refine (ensures_declareAnonymous node around owner).bind fun t => .of_fact fun older => ?_
      exact back (Nat.le_succ_of_le older) (inside _ ⟨some t, none, false⟩ (inType t))
    · refine (ensures_declareMethod node around.owner owner).bind fun m => ?_
      refine (ensures_declareTypeParameters _ _ _ owner).bind fun _ => ?_
      refine (ensures_declareParameters ih m ⟨around.owner, some m, true⟩ owner).bind fun _ => ?_
      exact ensures_insideField ih .body ⟨around.owner, some m, true⟩ owner
    · refine .forM fun each heach => ?_
      refine (ensures_declareField node each.1 around.owner owner).bind fun _ => ?_
      exact (ih each (List.mem_filter.1 heach).1).inside n ⟨around.owner, none, true⟩ owner
    · refine (ensures_declareEnumConstant around.owner owner member (by simpa using isConstant)).bind
        fun _ => ?_
      exact inside n ⟨around.owner, around.method, true⟩ owner
    · exact inside n ⟨around.owner, none, true⟩ owner
    · exact (ensures_declareInMethod node around.method).bind fun _ => inside n around owner
  · obtain ⟨each, heach, rfl⟩ := List.mem_map.1 hpart
    exact (ih each (List.mem_filter.1 heach).1).inside n around owner

theorem keepsSound_fold {node : Node} (member : node ∈ c.document.root.preorder) :
    (node.fold passStep).KeepsSound c := by
  induction node using Node.induction with
  | h node ih =>
    rw [Node.fold_eq]
    apply passStep_keepsSound member
    intro each heach
    obtain ⟨c, hc, rfl⟩ := List.mem_map.1 heach
    exact ih c hc (Node.mem_preorder_of_mem_children member hc)

end Draft

namespace Environment

theorem sound_empty (c : Context) : (empty c).Sound c where
  context := rfl
  closed := {
    store := .empty
    declared := nofun
    types := nofun
    recovered := nofun
    derived := nofun }
  distinct := .nil
  fields _ _ h := nomatch h
  constants _ _ h := nomatch h

/-- The header of a file declares nothing. -/
theorem readHeader_sound (c : Context) :
    (readHeader (empty c)).Sound c ∧ (readHeader (empty c)).store = {} := by
  have step : ∀ e part, e.Sound c ∧ e.store = {} →
      (readHeaderPart e part).Sound c ∧ (readHeaderPart e part).store = {} := by
    intro e part h
    unfold readHeaderPart
    split
    · exact ⟨{ h.1 with closed := { h.1.closed with } }, h.2⟩
    · exact ⟨{ h.1 with closed := { h.1.closed with } }, h.2⟩
    · exact h
  exact List.foldlRecOn _ _ ⟨sound_empty c, rfl⟩ fun e h part _ => step e part h

/-- The first pass starts with the header of the file. -/
theorem declared_eq_ok {c : Context} {d : Draft} (h : declared c = .ok d) :
    outcome (Draft.declareBelow c.document.root ⟨none, none, false⟩)
      { readHeader (empty c) with pending := [] } = (.ok (), d) := by
  have document : (readHeader (empty c)).document = c.document := by
    rw [Environment.document, (readHeader_sound c).1.context]
  have run : (outcome (Draft.declareBelow c.document.root ⟨none, none, false⟩)
      { readHeader (empty c) with pending := [] }).1.map (fun _ => (outcome
        (Draft.declareBelow c.document.root ⟨none, none, false⟩)
          { readHeader (empty c) with pending := [] }).2) = .ok d := by
    rw [← document]
    exact h
  rcases ends : outcome (Draft.declareBelow c.document.root ⟨none, none, false⟩)
    { readHeader (empty c) with pending := [] } with ⟨f | x, d'⟩ <;> rw [ends] at run
  · cases run
  · cases run
    rfl

/-- The first pass leaves a sound environment without derived types. -/
theorem declared_sound {c : Context} {d : Draft} (h : declared c = .ok d) :
    d.SoundTo c 0 := by
  obtain ⟨sound, store⟩ := readHeader_sound c
  have start : ({ readHeader (empty c) with pending := [] } : Draft).SoundTo c 0 := by
    refine ⟨sound, fun t => ?_, Nat.zero_le _, ⟨.nil, nofun⟩⟩
    show ((readHeader (empty c)).store.type t).IsUnderived
    rw [store]
    exact ⟨rfl, rfl⟩
  have pass := (Draft.keepsSound_fold (Node.mem_preorder_self c.document.root)).inside 0
    ⟨none, none, false⟩ nofun
  exact pass _ start _ _ (declared_eq_ok h)

end Environment

end JavaScope
