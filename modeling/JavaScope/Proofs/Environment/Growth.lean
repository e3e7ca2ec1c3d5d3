import JavaScope.Environment.Resolve
import JavaScope.Proofs.Action
import JavaScope.Proofs.Binding.Store
import JavaScope.Proofs.Tree

/-!
# How an environment grows

Queries change an environment in one way only: a type that is needed for the first time is added
behind those that are there, and is filed so that it is found again. `Environment.Grows` says this
of two states, and `Environment.Extends` more of the types that are recovered by name; the actions of
this module keep both.
-/

namespace JavaScope

/-! ## Growth of a store -/

/-- The type declares nothing itself, and uses a generic type only with arguments. Otherwise no type
encloses it. -/
structure TypeBinding.IsBare (b : TypeBinding) : Prop where
  fields : b.declaredFields = []
  methods : b.declaredMethods = []
  types : b.declaredTypes = []
  parameters : b.typeParameters = []
  arguments : b.genericType.isSome → ∃ given ≠ [], b.typeArguments = given.map some
  owner : b.genericType = none → b.declaringClass = none

theorem TypeBinding.isBare_default : ({} : TypeBinding).IsBare := ⟨rfl, rfl, rfl, rfl, nofun, fun _ => rfl⟩

/-- No supertype of the type was resolved: it has at most the type above all others above it. -/
structure TypeBinding.IsLeaf (b : TypeBinding) : Prop where
  superclass : b.superclass = none
  interfaces : b.interfaces = []
  isTypeVariable : b.isTypeVariable = false

theorem TypeBinding.isLeaf_default : ({} : TypeBinding).IsLeaf := ⟨rfl, rfl, rfl⟩

/-- The type has nothing above it. -/
structure TypeBinding.IsRoot (b : TypeBinding) : Prop where
  kind : b.kind = .classType
  superclass : b.superclass = none
  interfaces : b.interfaces = []
  generic : b.genericType = none

/-- The binding of a type that is known by its qualified name only. -/
def TypeBinding.ofName (name : String) : TypeBinding where
  name := lastSegment name
  qualifiedName := name
  package := qualifierOfName name
  modifiers := .public
  recovered := true

theorem TypeBinding.isBare_ofName (name : String) : (ofName name).IsBare :=
  ⟨rfl, rfl, rfl, rfl, by rintro ⟨⟩, fun _ => rfl⟩

theorem TypeBinding.isLeaf_ofName (name : String) : (ofName name).IsLeaf :=
  ⟨rfl, rfl, rfl⟩

theorem TypeBinding.isRoot_ofName (name : String) : (ofName name).IsRoot :=
  ⟨rfl, rfl, rfl, rfl⟩

/-- The binding of a wildcard, which is known by its text. -/
def TypeBinding.ofWildcard (text : String) (bounds : List (Option TypeId)) : TypeBinding where
  name := text
  qualifiedName := text
  kind := .wildcard
  bounds := bounds

theorem TypeBinding.isBare_ofWildcard (text : String) (bounds : List (Option TypeId)) :
    (ofWildcard text bounds).IsBare :=
  ⟨rfl, rfl, rfl, rfl, by rintro ⟨⟩, fun _ => rfl⟩

theorem TypeBinding.isLeaf_ofWildcard (text : String) (bounds : List (Option TypeId)) :
    (ofWildcard text bounds).IsLeaf :=
  ⟨rfl, rfl, rfl⟩

/-- The second store has more types, which declare nothing, and is otherwise the first one. -/
structure Store.Grows (s s' : Store) : Prop where
  vars : s'.vars = s.vars
  methods : s'.methods = s.methods
  size : s.types.size ≤ s'.types.size
  kept : ∀ t : TypeId, t.index < s.types.size → s'.type t = s.type t
  bare : ∀ t : TypeId, s.types.size ≤ t.index → (s'.type t).IsBare

namespace Store

namespace Grows

variable {s s' s'' : Store}

theorem refl (s : Store) : s.Grows s where
  vars := rfl
  methods := rfl
  size := Nat.le_refl _
  kept _ _ := rfl
  bare t h := by
    rw [type_of_size_le h]
    exact TypeBinding.isBare_default

theorem trans (h : s.Grows s') (h' : s'.Grows s'') : s.Grows s'' where
  vars := h'.vars.trans h.vars
  methods := h'.methods.trans h.methods
  size := Nat.le_trans h.size h'.size
  kept t ht := by rw [h'.kept t (Nat.lt_of_lt_of_le ht h.size), h.kept t ht]
  bare t ht := by
    by_cases hs : t.index < s'.types.size
    · rw [h'.kept t hs]
      exact h.bare t ht
    · exact h'.bare t (Nat.le_of_not_lt hs)

theorem addType {b : TypeBinding} (h : s.Grows s') (hb : b.IsBare) :
    s.Grows (s'.addType b).2 where
  vars := h.vars
  methods := h.methods
  size := Nat.le_trans h.size (by simp)
  kept t ht := by rw [type_addType_of_lt s' b (Nat.lt_of_lt_of_le ht h.size), h.kept t ht]
  bare t ht := by
    rcases type_addType_cases s' b t with ⟨-, h'⟩ | ⟨-, h'⟩ | ⟨-, h'⟩ <;> rw [h']
    · exact h.bare t ht
    · exact hb
    · exact TypeBinding.isBare_default

theorem variable_eq (h : s.Grows s') (v : VariableId) : s'.variable v = s.variable v := by
  rw [Store.variable, Store.variable, h.vars]

theorem method_eq (h : s.Grows s') (m : MethodId) : s'.method m = s.method m := by
  rw [Store.method, Store.method, h.methods]

theorem has (h : s.Grows s') {b : BindingId} (hb : s.Has b) : s'.Has b :=
  hb.mono h.size (Nat.le_of_eq (congrArg Array.size h.vars.symm))
    (Nat.le_of_eq (congrArg Array.size h.methods.symm))

/-- What a type declares in a grown store, it declared before. -/
theorem declares_eq (h : s.Grows s') (t : TypeId) :
    (s'.type t).declaredFields = (s.type t).declaredFields ∧
      (s'.type t).declaredMethods = (s.type t).declaredMethods ∧
      (s'.type t).declaredTypes = (s.type t).declaredTypes ∧
      (s'.type t).typeParameters = (s.type t).typeParameters := by
  by_cases ht : t.index < s.types.size
  · rw [h.kept t ht]
    exact ⟨rfl, rfl, rfl, rfl⟩
  · have hb := h.bare t (Nat.le_of_not_lt ht)
    rw [type_of_size_le (Nat.le_of_not_lt ht)]
    exact ⟨hb.fields, hb.methods, hb.types, hb.parameters⟩

end Grows

end Store

/-! ## Growth of an environment -/

/-- Entries by key that are found in the first table are found in the second one. -/
def TableKept {κ α : Type} [BEq κ] (table table' : List (κ × α)) : Prop :=
  ∀ key a, table.lookup key = some a → table'.lookup key = some a

theorem TableKept.cons {κ α : Type} [BEq κ] [LawfulBEq κ] {table table' : List (κ × α)} {key : κ}
    (h : TableKept table table') (fresh : table'.lookup key = none) (a : α) :
    TableKept table ((key, a) :: table') := by
  intro k b hk
  have hk' := h k b hk
  have hne : (k == key) = false := by
    rw [beq_eq_false_iff_ne]
    rintro rfl
    rw [fresh] at hk'
    cases hk'
  rw [List.lookup_cons, hne]
  exact hk'

/-- The second environment has more types that were made on the way, and is otherwise the first
one. -/
structure Environment.Grows (e e' : Environment) : Prop where
  context : e'.context = e.context
  package : e'.package = e.package
  imports : e'.imports = e.imports
  types : e'.types = e.types
  declarations : e'.declarations = e.declarations
  store : e.store.Grows e'.store
  recovered : TableKept e.recovered e'.recovered
  derived : TableKept e.derived e'.derived

namespace Environment

namespace Grows

variable {e e' e'' : Environment}

theorem refl (e : Environment) : e.Grows e where
  context := rfl
  package := rfl
  imports := rfl
  types := rfl
  declarations := rfl
  store := .refl _
  recovered _ _ h := h
  derived _ _ h := h

theorem trans (h : e.Grows e') (h' : e'.Grows e'') : e.Grows e'' where
  context := h'.context.trans h.context
  package := h'.package.trans h.package
  imports := h'.imports.trans h.imports
  types := h'.types.trans h.types
  declarations := h'.declarations.trans h.declarations
  store := h.store.trans h'.store
  recovered key t hk := h'.recovered key t (h.recovered key t hk)
  derived key t hk := h'.derived key t (h.derived key t hk)

theorem document (h : e.Grows e') : e'.document = e.document := by
  rw [Environment.document, Environment.document, h.context]

theorem bindings (h : e.Grows e') : e'.bindings = e.bindings := by
  rw [Environment.bindings, Environment.bindings, h.declarations]

theorem declaredAt (h : e.Grows e') : e'.declaredAt = e.declaredAt := by
  funext n
  rw [Environment.declaredAt, Environment.declaredAt, h.declarations]

theorem typeAt (h : e.Grows e') : e'.typeAt = e.typeAt := by
  funext n
  rw [Environment.typeAt, Environment.typeAt, h.declaredAt]

theorem bindingOf (h : e.Grows e') : e'.bindingOf = e.bindingOf := by
  funext n
  simp only [Environment.bindingOf, h.declaredAt]

theorem enclosingType (h : e.Grows e') : e'.enclosingType = e.enclosingType := by
  funext n
  simp only [Environment.enclosingType, h.types, h.typeAt]

end Grows

/-! ## What types made on the way leave as it is -/

/-- The second environment has grown from the first one, and the types that were recovered by name
on the way have nothing above them. -/
structure Extends (e e' : Environment) : Prop extends e.Grows e' where
  roots : ∀ name t, e.recovered.lookup name = none → e'.recovered.lookup name = some t →
    e.store.types.size ≤ t.index ∧ e'.store.Has (.type t) ∧ (e'.store.type t).IsRoot

/-- A property of environments that no type made on the way changes: a wildcard, a type that is
recovered by its name, or one that is derived from others. -/
class Lasts (I : Environment → Prop) : Prop where
  wildcard : ∀ (text : String) (bounds : List (Option TypeId)),
    Keeps I (EnvironmentM.addType (.ofWildcard text bounds))
  recoveredType : ∀ name : String, Keeps I (recoveredType name)
  primitiveType : ∀ name : String, Keeps I (primitiveType name)
  arrayOf : ∀ (element : Option TypeId) (dimensions : Int), Keeps I (arrayOf element dimensions)
  parameterized : ∀ (generic : Option TypeId) (arguments : List TypeId),
    Keeps I (parameterized generic arguments)

/-- A property of environments that no new type changes, whatever it is derived from: it is enough
that the type declares nothing and lists no supertypes. -/
class LastsEntries (I : Environment → Prop) : Prop where
  addType : ∀ {e : Environment} {b : TypeBinding}, I e → b.IsBare → b.IsLeaf →
    I { e with store := (e.store.addType b).2 }
  recover : ∀ {e : Environment} {name : String}, I e → e.recovered.lookup name = none →
    I { e with
      store := (e.store.addType (.ofName name)).2
      recovered := (name, (e.store.addType (.ofName name)).1) :: e.recovered }
  derive : ∀ {e : Environment} {key : String} {b : TypeBinding}, I e →
    e.derived.lookup key = none → b.IsBare → b.IsLeaf →
    I { e with
      store := (e.store.addType b).2
      derived := (key, (e.store.addType b).1) :: e.derived }

section Entries

variable {I : Environment → Prop}

theorem keeps_read {α : Type} (f : Environment → α) : Keeps I (EnvironmentM.read f) :=
  fun _ h => h

variable [LastsEntries I]

theorem keeps_derivedType (key : String) {b : TypeBinding} (hb : b.IsBare) (leaf : b.IsLeaf) :
    Keeps I (derivedType key b) := by
  intro e h
  rw [derivedType, outcome_bind_of_ok (outcome_get e)]
  cases fresh : e.derived.lookup key with
  | some t => exact h
  | none => exact LastsEntries.derive h fresh hb leaf

theorem keeps_flatArrayOf (element : TypeId) (dimensions : Int) :
    Keeps I (flatArrayOf element dimensions) := by
  refine (keeps_read store).bind fun s => (Keeps.ofExcept _).bind fun key => ?_
  exact keeps_derivedType _ ⟨rfl, rfl, rfl, rfl, nofun, fun _ => rfl⟩ ⟨rfl, rfl, rfl⟩

instance : Lasts I where
  wildcard text bounds _ h :=
    LastsEntries.addType h (TypeBinding.isBare_ofWildcard text bounds)
      (TypeBinding.isLeaf_ofWildcard text bounds)
  recoveredType name e h := by
    rw [Environment.recoveredType, outcome_bind_of_ok (outcome_get e)]
    cases fresh : e.recovered.lookup name with
    | some t => exact h
    | none => exact LastsEntries.recover h fresh
  primitiveType name :=
    keeps_derivedType name ⟨rfl, rfl, rfl, rfl, by rintro ⟨⟩, fun _ => rfl⟩ ⟨rfl, rfl, rfl⟩
  arrayOf element dimensions := by
    cases element with
    | none => exact .pure none
    | some element =>
      refine .ite (.pure _) ?_
      refine (keeps_read store).bind fun s => .ite ?_ ?_
      · refine (Keeps.ofExcept _).bind fun inner => ?_
        exact (keeps_flatArrayOf inner _).bind fun t => .pure (some t)
      · exact (keeps_flatArrayOf element dimensions).bind fun t => .pure (some t)
  parameterized generic arguments := by
    unfold Environment.parameterized
    split
    · exact .pure generic
    next given =>
      refine (Keeps.ofExcept _).bind fun generic => (keeps_read store).bind fun s => ?_
      refine (Keeps.ofExcept _).bind fun keys => (Keeps.ofExcept _).bind fun key => ?_
      refine (keeps_derivedType _ ⟨rfl, rfl, rfl, rfl, fun _ => ⟨arguments, ?_, rfl⟩, ?_⟩
        ⟨rfl, rfl, rfl⟩).bind fun t => .pure (some t)
      · simpa using given
      · rintro ⟨⟩

end Entries

variable {e₀ : Environment}

theorem Grows.addType {e : Environment} {b : TypeBinding} (h : e₀.Grows e) (hb : b.IsBare) :
    e₀.Grows { e with store := (e.store.addType b).2 } :=
  { h with store := h.store.addType hb }

instance : LastsEntries e₀.Grows where
  addType h hb _ := h.addType hb
  recover h fresh :=
    { h.addType (TypeBinding.isBare_ofName _) with recovered := h.recovered.cons fresh _ }
  derive h fresh hb _ := { h.addType hb with derived := h.derived.cons fresh _ }

namespace Extends

theorem refl (e : Environment) : e.Extends e where
  toGrows := .refl e
  roots _ _ unknown found := by
    rw [unknown] at found
    cases found

theorem addType {e : Environment} {b : TypeBinding} (h : e₀.Extends e) (hb : b.IsBare) :
    e₀.Extends { e with store := (e.store.addType b).2 } where
  toGrows := h.toGrows.addType hb
  roots name t unknown found := by
    obtain ⟨fresh, has, root⟩ := h.roots name t unknown found
    refine ⟨fresh, Store.Has.mono has (by simp) (Nat.le_refl _) (Nat.le_refl _), ?_⟩
    show ((e.store.addType b).2.type t).IsRoot
    rw [Store.type_addType_of_lt _ _ has]
    exact root

instance : LastsEntries e₀.Extends where
  addType h hb _ := h.addType hb
  recover {e name} h fresh := {
    LastsEntries.recover h.toGrows fresh with
    roots := by
      intro known t unknown found
      have found : List.lookup known ((name, (e.store.addType (.ofName name)).1) :: e.recovered) =
        some t := found
      by_cases same : known = name
      · subst same
        rw [List.lookup_cons_self] at found
        cases found
        refine ⟨h.store.size, ?_, ?_⟩
        · show e.store.types.size < (e.store.addType (.ofName known)).2.types.size
          simp
        · show ((e.store.addType (.ofName known)).2.type (e.store.addType (.ofName known)).1).IsRoot
          rw [Store.type_addType_self]
          exact TypeBinding.isRoot_ofName known
      · rw [List.lookup_cons, beq_eq_false_iff_ne.2 same] at found
        exact (h.addType (TypeBinding.isBare_ofName name)).roots known t unknown found }
  derive h fresh hb leaf :=
    { LastsEntries.derive h.toGrows fresh hb leaf with roots := (h.addType hb).roots }

end Extends

/-! ## Actions that only let it grow -/

section Keeps

variable {I : Environment → Prop}

variable [Lasts I]

theorem keeps_recoveredType (name : String) : Keeps I (recoveredType name) :=
  Lasts.recoveredType name

theorem keeps_objectType : Keeps I objectType :=
  keeps_recoveredType _

theorem keeps_primitiveType (name : String) : Keeps I (primitiveType name) :=
  Lasts.primitiveType name

theorem keeps_arrayOf (element : Option TypeId) (dimensions : Int) :
    Keeps I (arrayOf element dimensions) :=
  Lasts.arrayOf element dimensions

theorem keeps_parameterized (generic : Option TypeId) (arguments : List TypeId) :
    Keeps I (parameterized generic arguments) :=
  Lasts.parameterized generic arguments

theorem keeps_resolveTypeNameIn (scopes : List Node) (name : String) :
    Keeps I (resolveTypeNameIn scopes name) := by
  refine Keeps.get.bind fun e => ?_
  split
  · exact .pure _
  · split
    · split
      · exact .pure _
      · exact keeps_recoveredType _
    · exact .ite (keeps_recoveredType _) (keeps_recoveredType _)

theorem keeps_resolveQualifiedTypeIn (scopes : List Node) (dotted : String) :
    Keeps I (resolveQualifiedTypeIn scopes dotted) := by
  refine Keeps.get.bind fun e => ?_
  split
  · exact .pure _
  · refine (keeps_resolveTypeNameIn scopes _).bind fun first => Keeps.get.bind fun e => ?_
    refine .ite (keeps_recoveredType dotted) ?_
    split
    · exact .pure _
    · exact keeps_recoveredType dotted

omit [Lasts I] in
theorem keeps_readAll (place : Node) {readings : List (Node → EnvironmentM (Option TypeId))}
    (h : ∀ reading ∈ readings, Keeps I (reading place)) :
    Keeps I (readAll place readings) :=
  (Keeps.mapM h).bind fun found => .pure (found.filterMap id)

/-- Every reading of the type keeps a property of the environment. -/
def TypeReading.Preserves (I : Environment → Prop) (reading : TypeReading) : Prop :=
  (∀ place, Keeps I (reading.here place)) ∧
    ∀ part ∈ reading.parts, ∀ place, Keeps I (part place)

theorem typeReadingStep_keeps (n : Node) (below : List (Node × TypeReading))
    (ih : ∀ each ∈ below, TypeReading.Preserves I each.2) :
    TypeReading.Preserves I (typeReadingStep n below) := by
  have named : ∀ each ∈ below.filter (·.1.isNamed), TypeReading.Preserves I each.2 :=
    fun each h => ih each (List.mem_filter.1 h).1
  refine ⟨fun place => Keeps.get.bind fun e => ?_, ?_⟩
  · dsimp only
    split
    iterate 4 exact (keeps_primitiveType _).bind fun t => .pure (some t)
    · -- an array over the type below
      split
      · next h =>
        exact ((ih _ (List.mem_of_find?_eq_some h)).1 place).bind fun t => keeps_arrayOf t _
      · exact (Keeps.pure none).bind fun t => keeps_arrayOf t _
    · -- a generic type with its arguments
      apply Keeps.ofExcept_bind
      intro base h
      have hbase := named base (List.mem_of_mem_head? (needed_eq_ok.1 h))
      apply (hbase.1 place).bind
      intro generic
      split
      · next h =>
        have harguments := ih _ (List.mem_of_find?_eq_some h)
        exact (keeps_readAll place fun part hp => harguments.2 part hp place).bind fun ts =>
          keeps_parameterized generic ts
      · exact (Keeps.pure []).bind fun ts => keeps_parameterized generic ts
    · exact (keeps_resolveTypeNameIn _ _).bind fun t => .pure (some t)
    · exact (keeps_resolveQualifiedTypeIn _ _).bind fun t => .pure (some t)
    · apply Keeps.ofExcept_bind
      intro last h
      exact (named last (List.mem_of_getLast? (needed_eq_ok.1 h))).1 place
    · refine (keeps_readAll place fun part hp => ?_).bind fun bounds => ?_
      · obtain ⟨each, member, rfl⟩ := List.mem_map.1 hp
        exact (named each (List.mem_filter.1 member).1).1 place
      · exact (Lasts.wildcard _ _).bind fun t => .pure (some t)
    · exact (keeps_recoveredType _).bind fun t => .pure (some t)
  · intro part h
    obtain ⟨each, member, rfl⟩ := List.mem_map.1 h
    exact (named each member).1

theorem keeps_resolveType (n place : Node) : Keeps I (resolveType n place) :=
  (Node.fold_induction (P := fun _ => TypeReading.Preserves I) typeReadingStep_keeps n).1 place

theorem keeps_resolveType? (n : Option Node) (place : Node) :
    Keeps I (resolveType? n place) := by
  cases n with
  | none => exact .pure none
  | some n => exact keeps_resolveType n place

end Keeps

end Environment

end JavaScope
