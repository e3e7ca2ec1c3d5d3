import JavaScope.Proofs.Environment.Places
import JavaScope.Proofs.Environment.Qualified
import JavaScope.Proofs.Environment.Spelling
import JavaScope.Proofs.Environment.TopLevel
import Mathlib.Data.List.TakeWhile

/-!
# Qualified names tell types apart

The first pass puts the qualified name of a member type together from that of its owner and the
simple name, and that of a top-level type from the package. A dotted name is taken apart again at its
last dot. So where the members of one type, and the top-level types, have names of their own, every
type that is not local is found by its qualified name.
-/

namespace JavaScope

/-! ## Dotted names -/

/-- A simple name behind the name of what it belongs to. -/
def dottedName (outer name : String) : String :=
  if outer.isEmpty then name else outer ++ "." ++ name

theorem dottedName_empty (name : String) : dottedName "" name = name := rfl

theorem toList_dottedName {outer : String} (nonempty : outer ≠ "") (name : String) :
    (dottedName outer name).toList = outer.toList ++ '.' :: name.toList := by
  have some_outer : outer.isEmpty = false := by simpa using nonempty
  rw [dottedName, some_outer]
  simp

section Plain

variable {name : String} (plain : '.' ∉ name.toList)

include plain

theorem ne_dot_of_mem_reverse : ∀ c ∈ name.toList.reverse, (c != '.') = true := by
  intro c member
  rw [bne_iff_ne]
  rintro rfl
  exact plain (List.mem_reverse.1 member)

theorem lastSegment_dottedName (outer : String) : lastSegment (dottedName outer name) = name := by
  have plain := ne_dot_of_mem_reverse plain
  rw [lastSegment]
  by_cases top : outer = ""
  · rw [top, dottedName_empty, List.takeWhile_eq_self_iff.2 plain, List.reverse_reverse,
      String.ofList_toList]
  · rw [toList_dottedName top, List.reverse_append, List.reverse_cons, List.append_assoc,
      List.takeWhile_append_of_pos plain]
    simp

theorem qualifierOfName_dottedName (outer : String) :
    qualifierOfName (dottedName outer name) = outer := by
  have plain := ne_dot_of_mem_reverse plain
  rw [qualifierOfName]
  by_cases top : outer = ""
  · rw [top, dottedName_empty, List.dropWhile_eq_nil_iff.2 plain]
    rfl
  · rw [toList_dottedName top, List.reverse_append, List.reverse_cons, List.append_assoc,
      List.dropWhile_append_of_pos plain]
    simp

end Plain

theorem length_lt_dottedName {name : String} (nonempty : name ≠ "") (outer : String) :
    outer.length < (dottedName outer name).length := by
  have some_name : 0 < name.length := Nat.pos_of_ne_zero (by simpa using nonempty)
  by_cases top : outer = ""
  · rw [top, dottedName_empty]
    exact some_name
  · rw [← String.length_toList, ← String.length_toList, toList_dottedName top, List.length_append,
      List.length_cons]
    omega

/-! ## Names that the first pass gives -/

namespace Store

variable {s s' : Store} {package : String} {t : TypeId}

/-- The name in front of a type's own name: that of its owner, or the package. -/
def outerName (s : Store) (package : String) (t : TypeId) : String :=
  match (s.type t).declaringClass with
  | some owner => (s.type owner).qualifiedName
  | none => package

theorem outerName_of_owner {owner : TypeId} (owns : (s.type t).declaringClass = some owner)
    (package : String) : s.outerName package t = (s.type owner).qualifiedName := by
  rw [outerName, owns]

theorem outerName_of_none (free : (s.type t).declaringClass = none) (package : String) :
    s.outerName package t = package := by
  rw [outerName, free]

/-- A type has its qualified name from its owner, which was there before and is no type parameter. -/
structure IsNamed (s : Store) (package : String) (t : TypeId) : Prop where
  name : (s.type t).qualifiedName = dottedName (s.outerName package t) (s.type t).name
  owner : ∀ owner ∈ (s.type t).declaringClass,
    owner.index < t.index ∧ (s.type owner).isTypeVariable = false

/-- What a type lists does not count for its name, nor what its supertypes are. -/
theorem IsNamed.congr (h : s.IsNamed package t)
    (same : ∀ u : TypeId, u.index ≤ t.index →
      (s'.type u).unlisted.outline = (s.type u).unlisted.outline) : s'.IsNamed package t := by
  have class' : (s'.type t).declaringClass = (s.type t).declaringClass :=
    (congrArg TypeBinding.declaringClass (same t (Nat.le_refl _)) :)
  have name : (s'.type t).name = (s.type t).name :=
    (congrArg TypeBinding.name (same t (Nat.le_refl _)) :)
  have qualified : ∀ u : TypeId, u.index ≤ t.index →
      (s'.type u).qualifiedName = (s.type u).qualifiedName := fun u older =>
    (congrArg TypeBinding.qualifiedName (same u older) :)
  refine ⟨?_, fun owner owns => ?_⟩
  · rw [qualified t (Nat.le_refl _), name, h.name, outerName, outerName, class']
    cases owns : (s.type t).declaringClass with
    | none => rfl
    | some owner => simp only [qualified owner (Nat.le_of_lt (h.owner owner owns).1)]
  · rw [class'] at owns
    obtain ⟨older, plain⟩ := h.owner owner owns
    have kind : (s'.type owner).kind = (s.type owner).kind :=
      (congrArg TypeBinding.kind (same owner (Nat.le_of_lt older)) :)
    rw [TypeBinding.isTypeVariable, kind]
    exact ⟨older, plain⟩

end Store

namespace Draft

/-- Types that are neither local nor type parameters have their qualified names from their owners, or
from the package. Some types are there and are no type parameters. -/
structure NamesTypes (outermost : String) (ids : List TypeId) (d : Draft) : Prop where
  package : d.package = outermost
  known : ∀ t ∈ ids, d.store.Has (.type t) ∧ (d.store.type t).isTypeVariable = false
  named : ∀ t, d.store.Has (.type t) → (d.store.type t).isLocal = false →
    (d.store.type t).isTypeVariable = false → d.store.IsNamed outermost t

namespace NamesTypes

variable {outermost : String} {ids : List TypeId} {d : Draft}

theorem mono {ids' : List TypeId} (h : d.NamesTypes outermost ids) (sub : ids' ⊆ ids) :
    d.NamesTypes outermost ids' :=
  { h with known := fun t member => h.known t (sub member) }

/-- The same types, but for what they list. -/
theorem setStore {s : Store} (h : d.NamesTypes outermost ids)
    (size : s.types.size = d.store.types.size)
    (same : ∀ t, (s.type t).unlisted = (d.store.type t).unlisted) :
    (d.withStore s).NamesTypes outermost ids := by
  have kind : ∀ t, (s.type t).kind = (d.store.type t).kind := fun t =>
    (congrArg TypeBinding.kind (same t) :)
  have isLocal : ∀ t, (s.type t).isLocal = (d.store.type t).isLocal := fun t =>
    (congrArg TypeBinding.isLocal (same t) :)
  have has : ∀ t, s.Has (.type t) ↔ d.store.Has (.type t) := fun t => by rw [Store.Has, size]; rfl
  refine ⟨h.package, fun t member => ?_, fun t stored outer plain => ?_⟩
  · show s.Has (.type t) ∧ (s.type t).isTypeVariable = false
    rw [has, TypeBinding.isTypeVariable, kind]
    exact h.known t member
  · have outer : (s.type t).isLocal = false := outer
    have plain : (s.type t).isTypeVariable = false := plain
    rw [isLocal] at outer
    rw [TypeBinding.isTypeVariable, kind] at plain
    exact (h.named t ((has t).1 stored) outer plain).congr fun u _ =>
      congrArg TypeBinding.outline (same u)

theorem addType {b : TypeBinding} (h : d.NamesTypes outermost ids)
    (named : b.isLocal = false → b.isTypeVariable = false →
      (d.store.addType b).2.IsNamed outermost (d.store.addType b).1) :
    (d.withStore (d.store.addType b).2).NamesTypes outermost ids := by
  have kept : ∀ t : TypeId, t.index < d.store.types.size →
      (d.store.addType b).2.type t = d.store.type t := fun t old => Store.type_addType_of_lt _ _ old
  refine ⟨h.package, fun t member => ?_, fun t stored outer plain => ?_⟩
  · obtain ⟨has, plain⟩ := h.known t member
    refine ⟨has.mono (by simp [withStore]) (Nat.le_refl _) (Nat.le_refl _), ?_⟩
    show ((d.store.addType b).2.type t).isTypeVariable = false
    rw [kept t has]
    exact plain
  · have outer : ((d.store.addType b).2.type t).isLocal = false := outer
    have plain : ((d.store.addType b).2.type t).isTypeVariable = false := plain
    rcases Store.type_addType_cases d.store b t with ⟨old, same⟩ | ⟨new, same⟩ | ⟨beyond, -⟩
    · rw [same] at outer plain
      refine (h.named t old outer plain).congr fun u older => ?_
      show ((d.store.addType b).2.type u).unlisted.outline = _
      rw [kept u (Nat.lt_of_le_of_lt older old)]
    · have self : t = (d.store.addType b).1 := congrArg TypeId.mk new
      rw [same] at outer plain
      rw [self]
      exact named outer plain
    · have stored : t.index < (d.store.addType b).2.types.size := stored
      rw [Store.size_addType] at stored
      omega

/-- A new type that is no type parameter is known afterwards. -/
theorem addKnown {b : TypeBinding} (h : d.NamesTypes outermost ids) (plain : b.isTypeVariable = false)
    (named : b.isLocal = false → (d.store.addType b).2.IsNamed outermost (d.store.addType b).1) :
    (d.withStore (d.store.addType b).2).NamesTypes outermost ((d.store.addType b).1 :: ids) := by
  have added := h.addType fun outer _ => named outer
  refine ⟨added.package, fun t member => ?_, added.named⟩
  rcases List.mem_cons.1 member with rfl | member
  · refine ⟨?_, ?_⟩
    · show d.store.types.size < (d.store.addType b).2.types.size
      rw [Store.size_addType]
      exact Nat.lt_succ_self _
    · show ((d.store.addType b).2.type (d.store.addType b).1).isTypeVariable = false
      rw [Store.type_addType_self, plain]
  · exact added.known t member

end NamesTypes

instance (outermost : String) (ids : List TypeId) : Calm (NamesTypes outermost ids) where
  register _ _ := .modify fun _ h => { h with }
  postpone _ _ := .modify fun _ h => { h with }
  addType b _ inner := .modifyGet fun d h => h.addType fun outer plain => by simp_all
  addVariable b := .modifyGet fun d h => h.setStore rfl fun _ => rfl
  addMethod b := .modifyGet fun d h => h.setStore rfl fun _ => rfl
  modifyOwner owner change same := by
    cases owner with
    | none => exact .pure _
    | some t =>
      refine .modify fun d h => h.setStore (Store.size_modifyType ..) fun u => ?_
      rcases Store.type_modifyType_cases d.store t change u with kept | ⟨-, -, changed⟩
      · rw [kept]
      · rw [changed, same]
  modifyMethod m change _ := .modify fun d h => h.setStore rfl fun _ => rfl

/-! ## The pass -/

variable {outermost : String} {ids : List TypeId} {n : Node} {around : Surroundings}

/-- The draft keeps naming types while the action runs. -/
abbrev KeepsNames (outermost : String) (ids : List TypeId) (action : DeclareM Unit) : Prop :=
  Ensures (NamesTypes outermost ids) action fun _ => NamesTypes outermost ids

theorem names_of_quiet {action : DeclareM Unit} (quiet : Quiet action) :
    KeepsNames outermost ids action :=
  (quiet _).ensures

theorem isNamed_addType {d : Draft} {b : TypeBinding} (h : d.NamesTypes outermost ids)
    (owner : ∀ t ∈ b.declaringClass, t ∈ ids)
    (name : b.qualifiedName = d.qualifiedName ⟨b.declaringClass, none, false⟩ b.name) :
    (d.store.addType b).2.IsNamed outermost (d.store.addType b).1 := by
  have self := Store.type_addType_self d.store b
  have kept : ∀ t ∈ b.declaringClass, (d.store.addType b).2.type t = d.store.type t :=
    fun t owns => Store.type_addType_of_lt _ _ (h.known t (owner t owns)).1
  refine ⟨?_, fun t owns => ?_⟩
  · rw [Store.outerName, self, name, Draft.qualifiedName, h.package]
    cases owns : b.declaringClass with
    | none => rfl
    | some t => simp only [kept t owns]; rfl
  · rw [self] at owns
    rw [kept t owns]
    exact h.known t (owner t owns)

theorem names_declareType (owner : ∀ t ∈ around.owner, t ∈ ids) :
    Ensures (NamesTypes outermost ids) (declareType n around)
      fun t => NamesTypes outermost (t :: ids) := by
  refine Ensures.bind (Q := fun d d' => d' = d ∧ d'.NamesTypes outermost ids)
    (.get fun d h => ⟨rfl, h⟩) fun d => (ensures_ownerIsInterface _).bind fun _ => ?_
  refine Ensures.bind (Q := fun t => NamesTypes outermost (t :: ids)) (.modifyGet ?_) fun t => ?_
  · rintro _ ⟨rfl, h⟩
    refine h.addKnown ?_ fun outer => isNamed_addType h owner ?_
    · show (typeKindOf n.kind == .typeParameter) = false
      cases n.kind <;> rfl
    · have outer : around.inBody = false := outer
      simp only [Draft.qualifiedName, outer]
  have file : Ensures (NamesTypes outermost (t :: ids)) (do
      register n (.type t)
      postpone (.type t) n
      return t) fun u => NamesTypes outermost (u :: ids) :=
    (Calm.register n (.type t)).ensures.bind fun _ => (Calm.postpone (.type t) n).ensures.bind
      fun _ => .pure fun _ h => h
  have top : Keeps (NamesTypes outermost (t :: ids))
      (modify fun d : Draft => { d with types := d.types ++ [t] }) := .modify fun _ h => { h with }
  have tail := Ensures.ite (c := around.owner.isNone = true)
    (fun _ => top.ensures.bind fun _ => file) fun _ => file
  dsimp only
  refine .ite (fun _ => Ensures.bind (Keeps.ensures ?_) fun _ => tail) fun _ => tail
  exact Calm.modifyOwner around.owner _ fun _ => rfl

theorem names_declareAnonymous :
    Ensures (NamesTypes outermost ids) (declareAnonymous n around)
      fun t => NamesTypes outermost (t :: ids) := by
  refine (Ensures.get fun _ h => h).bind fun d => ?_
  refine Ensures.bind (Q := fun t => NamesTypes outermost (t :: ids))
    (.modifyGet fun d h => h.addKnown rfl nofun) fun t => ?_
  exact (Calm.register n (.type t)).ensures.bind fun _ => (Calm.postpone (.type t) n).ensures.bind
    fun _ => .pure fun _ h => h

/-- The pass over the nodes below a node keeps naming types, if their owner is known. -/
def NamesInside (n : Node) : Prop :=
  ∀ outermost ids around, (∀ t ∈ around.owner, t ∈ ids) →
    KeepsNames outermost ids ((n.fold passStep).inside around)

theorem composes_names (outermost : String) (ids : List TypeId) :
    Composes fun _ => KeepsNames outermost ids :=
  ⟨.pure fun _ h => h, fun first second => first.bind fun _ => second⟩

theorem namesInside_of_children
    (ih : ∀ c ∈ n.children, ∀ outermost ids around, (∀ t ∈ around.owner, t ∈ ids) →
      KeepsNames outermost ids ((c.fold passStep).here around)) : NamesInside n :=
  fun outermost ids around owner => (composes_names outermost ids).inside
    (e := ⟨none, none, false⟩) fun c hc => ih c hc outermost ids around owner

/-- The pass over a node and the nodes below it keeps naming types. -/
theorem names_here (n : Node) : ∀ outermost ids around, (∀ t ∈ around.owner, t ∈ ids) →
    KeepsNames outermost ids ((n.fold passStep).here around) := by
  refine Node.induction_inside (fun n => namesInside_of_children) (fun n here below => ?_) n
  have self : ∀ c ∈ n.children, NamesInside c := fun c hc => below c hc c (Node.mem_preorder_self c)
  rw [NamesInside, Node.fold_eq] at here
  intro outermost ids around owner
  have inType : ∀ t : TypeId, ∀ u ∈ some t, u ∈ t :: ids := by
    rintro t _ ⟨⟩
    exact List.mem_cons_self
  -- behind its body nobody needs to know a type any more
  have forget : ∀ {t : TypeId} {action : DeclareM Unit},
      KeepsNames outermost (t :: ids) action →
      Ensures (NamesTypes outermost (t :: ids)) action fun _ => NamesTypes outermost ids :=
    fun h => h.weaken (fun _ h => h) fun _ _ h => h.mono (List.subset_cons_self _ _)
  have field : ∀ {ids around f}, (∀ t ∈ around.owner, t ∈ ids) → KeepsNames outermost ids
      (insideField (n.children.map fun c => (c, c.fold passStep)) f around) :=
    fun {ids around _} owner => (composes_names outermost ids).insideField
      (e := ⟨none, none, false⟩) fun c hc => self c hc outermost ids around owner
  rw [Node.fold_eq]
  refine .ite (fun _ => ?_) fun _ => .ite (fun _ => ?_) fun _ => .ite (fun _ => ?_) fun _ =>
    .ite (fun _ => ?_) fun _ => .ite (fun _ => ?_) fun _ => .ite (fun _ => ?_) fun _ => ?_
  · refine (names_declareType owner).bind fun t => forget ?_
    refine (names_of_quiet (quiet_declareTypeParameters n (some t) none)).bind fun _ => ?_
    refine .ite (fun _ => Ensures.bind ?_ fun _ => field (inType t)) fun _ => field (inType t)
    exact names_of_quiet (quiet_declareRecordComponents n t)
  · exact names_declareAnonymous.bind fun t => forget (here _ _ ⟨some t, none, false⟩ (inType t))
  · refine ((quiet_declareMethod n around.owner _).ensures).bind fun m => ?_
    refine (names_of_quiet (quiet_declareTypeParameters n around.owner (some m))).bind fun _ => ?_
    refine Ensures.bind ?_ fun _ => field owner
    exact (composes_names outermost ids).declareParameters (e := ⟨none, none, false⟩)
      (fun each => names_of_quiet (quiet_declareVariable each (some m) true)) fun c hc each heach =>
        below c hc each (Node.mem_preorder_of_child heach (Node.mem_preorder_self each)) _ _ _ owner
  · have composes := composes_names outermost ids
    refine @composes.declarators _ _ (fun _ => []) _ fun c hc => ?_
    refine (names_of_quiet (quiet_declareField n c around.owner)).bind fun _ => ?_
    exact self c hc outermost ids ⟨around.owner, none, true⟩ owner
  · exact (names_of_quiet (quiet_declareEnumConstant n around.owner)).bind fun _ =>
      here _ _ ⟨around.owner, around.method, true⟩ owner
  · exact here _ _ ⟨around.owner, none, true⟩ owner
  · exact (names_of_quiet (quiet_declareInMethod n around.method)).bind fun _ => here _ _ _ owner

end Draft

namespace Environment

variable {c : Context} {e e' : Environment} {t u : TypeId}

/-! ## Types that are not local -/

/-- A declared type that is neither local nor a type parameter. -/
structure IsNonlocal (c : Context) (e : Environment) (t : TypeId) : Prop where
  first : MakesFirst c t
  isLocal : (e.store.type t).isLocal = false
  plain : (e.store.type t).isTypeVariable = false

/-- A type that is declared outside of every other one, directly below the root of the file. -/
structure IsTopLevel (c : Context) (e : Environment) (t : TypeId) : Prop
    extends IsNonlocal c e t where
  owner : (e.store.type t).declaringClass = none
  node : ∃ n root, (e.store.type t).node = some n ∧ n.parent = some root ∧ root.parent = none

/-- The members of one type and the top-level types have simple names of their own, without dots, and
every other type is local. -/
structure NamesApart (c : Context) (e : Environment) : Prop where
  names : ∀ t, IsNonlocal c e t → (e.store.type t).name ≠ "" ∧ '.' ∉ (e.store.type t).name.toList
  siblings : ∀ t u owner, IsNonlocal c e t → IsNonlocal c e u →
    (e.store.type t).declaringClass = some owner → (e.store.type u).declaringClass = some owner →
      (e.store.type t).name = (e.store.type u).name → t = u
  topLevel : ∀ t u, IsTopLevel c e t → IsTopLevel c e u →
    (e.store.type t).name = (e.store.type u).name → t = u
  placed : ∀ t, IsNonlocal c e t → IsTopLevel c e t ∨
    ∃ owner, (e.store.type t).declaringClass = some owner ∧ (e.store.type owner).isLocal = false

/-- In a built environment types have their qualified names from their owners or from one package. -/
theorem build_names (built : build c = .ok e) :
    ∃ outermost, ∀ t, IsNonlocal c e t → e.store.IsNamed outermost t := by
  obtain ⟨d, declares, completes⟩ := build_eq_ok built
  have outlines := outlines_of_completes completes
  obtain ⟨-, store⟩ := readHeader_sound c
  have start : ({ readHeader (empty c) with pending := [] } : Draft).NamesTypes
      (readHeader (empty c)).package [] := by
    refine ⟨rfl, nofun, fun t stored => ?_⟩
    have stored : t.index < (readHeader (empty c)).store.types.size := stored
    rw [store] at stored
    cases stored
  have pass : Draft.NamesInside c.document.root :=
    Draft.namesInside_of_children fun child _ => Draft.names_here child
  have named := pass _ [] ⟨none, none, false⟩ nofun _ start _ _ (declared_eq_ok declares)
  refine ⟨(readHeader (empty c)).package, fun t nonlocal => ?_⟩
  obtain ⟨_, declares', has⟩ := nonlocal.first
  cases declares.symm.trans declares'
  have same := outlines.store.type t has
  have isLocal : (e.store.type t).isLocal = (d.store.type t).isLocal :=
    (congrArg TypeBinding.isLocal same :)
  have kind : (e.store.type t).kind = (d.store.type t).kind := (congrArg TypeBinding.kind same :)
  have plain := nonlocal.plain
  rw [TypeBinding.isTypeVariable, kind] at plain
  refine (named.named t has (isLocal.symm.trans nonlocal.isLocal) plain).congr fun u older => ?_
  exact congrArg TypeBinding.unlisted (outlines.store.type u (Nat.lt_of_le_of_lt older has))

namespace NamesApart

theorem isTopLevel (apart : NamesApart c e) (nonlocal : IsNonlocal c e t)
    (free : (e.store.type t).declaringClass = none) : IsTopLevel c e t := by
  rcases apart.placed t nonlocal with top | ⟨owner, owns, -⟩
  · exact top
  · cases free.symm.trans owns

variable {outermost : String} (built : build c = .ok e) (apart : NamesApart c e)
  (named : ∀ t, IsNonlocal c e t → e.store.IsNamed outermost t)

include built apart named

theorem owner (nonlocal : IsNonlocal c e t) (owns : (e.store.type t).declaringClass = some u) :
    IsNonlocal c e u ∧ u.index < t.index := by
  obtain ⟨older, plain⟩ := (named t nonlocal).owner u owns
  refine ⟨⟨nonlocal.first.owner built owns, ?_, plain⟩, older⟩
  rcases apart.placed t nonlocal with top | ⟨owner, owns', isLocal⟩
  · cases top.owner.symm.trans owns
  · cases owns.symm.trans owns'
    exact isLocal

theorem length_package_lt (nonlocal : IsNonlocal c e t) :
    outermost.length < (e.store.type t).qualifiedName.length := by
  induction h : t.index using Nat.strong_induction_on generalizing t with
  | h k ih =>
    have further := length_lt_dottedName (apart.names t nonlocal).1 (e.store.outerName outermost t)
    rw [← (named t nonlocal).name] at further
    cases owns : (e.store.type t).declaringClass with
    | none =>
      rw [Store.outerName_of_none owns] at further
      exact further
    | some u =>
      rw [Store.outerName_of_owner owns] at further
      obtain ⟨nonlocal', older⟩ := apart.owner built named nonlocal owns
      exact Nat.lt_trans (ih u.index (h ▸ older) nonlocal' rfl) further

/-- The qualified name of a member type tells its owner, and so on outwards to the package. -/
theorem eq_of_qualifiedName (first : IsNonlocal c e t) (second : IsNonlocal c e u)
    (same : (e.store.type t).qualifiedName = (e.store.type u).qualifiedName) : t = u := by
  induction h : t.index using Nat.strong_induction_on generalizing t u with
  | h k ih =>
    rw [(named t first).name, (named u second).name] at same
    have plain := (apart.names t first).2
    have plain' := (apart.names u second).2
    have simple := congrArg lastSegment same
    rw [lastSegment_dottedName plain, lastSegment_dottedName plain'] at simple
    have outer := congrArg qualifierOfName same
    rw [qualifierOfName_dottedName plain, qualifierOfName_dottedName plain'] at outer
    cases owns : (e.store.type t).declaringClass with
    | none =>
      cases owns' : (e.store.type u).declaringClass with
      | none =>
        exact apart.topLevel t u (apart.isTopLevel first owns) (apart.isTopLevel second owns') simple
      | some w =>
        have further := apart.length_package_lt built named (apart.owner built named second owns').1
        rw [Store.outerName_of_none owns, Store.outerName_of_owner owns'] at outer
        exact absurd (congrArg String.length outer) (Nat.ne_of_lt further)
    | some v =>
      obtain ⟨nonlocal, older⟩ := apart.owner built named first owns
      cases owns' : (e.store.type u).declaringClass with
      | none =>
        have further := apart.length_package_lt built named nonlocal
        rw [Store.outerName_of_owner owns, Store.outerName_of_none owns'] at outer
        exact absurd (congrArg String.length outer.symm) (Nat.ne_of_lt further)
      | some w =>
        obtain ⟨nonlocal', -⟩ := apart.owner built named second owns'
        rw [Store.outerName_of_owner owns, Store.outerName_of_owner owns'] at outer
        have sameOwner : v = w := ih v.index (h ▸ older) nonlocal nonlocal' outer rfl
        exact apart.siblings t u v first second owns (sameOwner ▸ owns') simple

end NamesApart

/-! ## Types by their qualified names -/

/-- Where no two nodes share a key, all types of the first pass are in the table. -/
theorem MakesFirst.filed (built : build c = .ok e) (regular : c.document.tree.IsRegular)
    (first : MakesFirst c t) : .type t ∈ e.bindings := by
  obtain ⟨d, declares, has⟩ := first
  exact ((build_files built (Site.nodup_keys regular _)).2 d declares (.type t)).1 has

/-- Types that are not local have qualified names of their own. By its qualified name such a type is
found in the unit, and from everywhere, also after other types were made on the way. It has to be in the
table, where all types are if no two nodes share a key. -/
theorem build_finds_qualified (built : build c = .ok e) (apart : NamesApart c e) :
    (∀ t u, IsNonlocal c e t → IsNonlocal c e u → t ≠ u →
      (e.store.type t).qualifiedName ≠ (e.store.type u).qualifiedName) ∧
    (c.document.tree.IsRegular → ∀ t, IsNonlocal c e t → .type t ∈ e.bindings) ∧
    ∀ t, IsNonlocal c e t → .type t ∈ e.bindings → ∀ e', e.Grows e' →
      e'.findType (e.store.type t).qualifiedName = some t ∧
      ∀ place, outcome (resolveQualifiedType (e.store.type t).qualifiedName place) e' =
        (.ok t, e') := by
  obtain ⟨outermost, named⟩ := build_names built
  have distinct : ∀ t u, IsNonlocal c e t → IsNonlocal c e u →
      (e.store.type t).qualifiedName = (e.store.type u).qualifiedName → t = u :=
    fun t u first second => apart.eq_of_qualifiedName built named first second
  refine ⟨fun t u first second ne same => ne (distinct t u first second same),
    fun regular t nonlocal => nonlocal.first.filed built regular, fun t nonlocal filed e' grows => ?_⟩
  have kept : ∀ u, .type u ∈ e.bindings → e'.store.type u = e.store.type u := fun u member =>
    grows.store.kept u ((build_ready built).sound.closed.declared _ member)
  have found : e'.findType (e.store.type t).qualifiedName = some t := by
    cases found : e'.findType (e.store.type t).qualifiedName with
    | none =>
      have passed := List.findSome?_eq_none_iff.1 found (.type t) (grows.bindings ▸ filed)
      have taken := (qualified_eq_some_iff (e := e') (t := t)).2 ⟨rfl, t, rfl,
        by rw [kept t filed], by rw [kept t filed, nonlocal.isLocal],
        by rw [kept t filed, nonlocal.plain]⟩
      exact absurd (passed.symm.trans taken) (Option.some_ne_none t).symm
    | some u =>
      obtain ⟨before, after, cut, ⟨_, ⟨⟩, same, isLocal, plain⟩, -⟩ := findType_eq_some_iff.1 found
      have member : .type u ∈ e.bindings := by
        rw [← grows.bindings, cut]
        simp
      rw [kept u member] at same isLocal plain
      have first := makesFirst_of_declares built (.inl member)
      exact congrArg some (distinct u t ⟨first, isLocal, plain⟩ nonlocal same)
  exact ⟨found, fun place => outcome_resolveQualifiedType_of_some found⟩

/-! ## Checking a file -/

/-- The types among the first ones that are neither local nor type parameters. -/
def nonlocalTypes (e : Environment) (size : Nat) : List TypeId :=
  ((List.range size).map TypeId.mk).filter fun t =>
    !(e.store.type t).isLocal && !(e.store.type t).isTypeVariable

theorem mem_nonlocalTypes {d : Draft} (declares : declared c = .ok d) :
    t ∈ e.nonlocalTypes d.store.types.size ↔ IsNonlocal c e t := by
  have first : MakesFirst c t ↔ t.index < d.store.types.size := by
    refine ⟨fun ⟨_, declares', has⟩ => ?_, fun has => ⟨d, declares, has⟩⟩
    cases declares.symm.trans declares'
    exact has
  have index : t ∈ (List.range d.store.types.size).map TypeId.mk ↔ t.index < d.store.types.size := by
    rw [List.mem_map]
    exact ⟨fun ⟨i, below, same⟩ => same ▸ List.mem_range.1 below,
      fun below => ⟨t.index, List.mem_range.2 below, rfl⟩⟩
  rw [nonlocalTypes, List.mem_filter, index, ← first, Bool.and_eq_true, Bool.not_eq_true',
    Bool.not_eq_true']
  exact ⟨fun ⟨first, isLocal, plain⟩ => ⟨first, isLocal, plain⟩,
    fun ⟨first, isLocal, plain⟩ => ⟨first, isLocal, plain⟩⟩

/-- A type stands in one that is not local, or directly below the root of the file. -/
def isPlaced (e : Environment) (t : TypeId) : Bool :=
  match (e.store.type t).declaringClass with
  | some owner => !(e.store.type owner).isLocal
  | none => (e.store.type t).node.any fun n => n.parent.any fun root => root.parent.isNone

/-- Types with one owner, or with none, have names of their own, and all of them are placed. -/
def TellsApart (e : Environment) (ids : List TypeId) : Prop :=
  (∀ t ∈ ids, (e.store.type t).name ≠ "" ∧ '.' ∉ (e.store.type t).name.toList) ∧
  (∀ t ∈ ids, ∀ u ∈ ids, (e.store.type t).declaringClass = (e.store.type u).declaringClass →
    (e.store.type t).name = (e.store.type u).name → t = u) ∧
  ∀ t ∈ ids, e.isPlaced t = true

instance (e : Environment) (ids : List TypeId) : Decidable (e.TellsApart ids) :=
  inferInstanceAs (Decidable (_ ∧ _ ∧ _))

theorem TellsApart.namesApart {d : Draft} (declares : declared c = .ok d)
    (apart : e.TellsApart (e.nonlocalTypes d.store.types.size)) : NamesApart c e := by
  obtain ⟨names, unique, placed⟩ := apart
  simp only [mem_nonlocalTypes declares] at names unique placed
  refine ⟨names, fun t u owner first second owns owns' =>
    unique t first u second (owns.trans owns'.symm), fun t u first second =>
    unique t first.toIsNonlocal u second.toIsNonlocal (first.owner.trans second.owner.symm),
    fun t nonlocal => ?_⟩
  have placed := placed t nonlocal
  rw [isPlaced] at placed
  split at placed
  · next owner owns => exact .inr ⟨owner, owns, by simpa using placed⟩
  · next free =>
    obtain ⟨n, node, placed⟩ := (Option.any_eq_true ..).1 placed
    obtain ⟨root, up, isRoot⟩ := (Option.any_eq_true ..).1 placed
    have top := Option.isNone_iff_eq_none.1 isRoot
    exact .inl { nonlocal with owner := free, node := ⟨n, root, node, up, top⟩ }

/-! ## A file in a package -/

/-- A class with a member class that has a member of the name of the outermost one, and a local class of
the name of the member. -/
def packageFile : Context :=
  .ofFile "package p; class A \x7b class B \x7b class A \x7b \x7d \x7d void m() \x7b class B \x7b \x7d \x7d \x7d class B \x7b \x7d" <|
    .named .program none 0 83 [
      .named .packageDeclaration none 0 10 [
        .token "package" 0, .named .identifier none 8 9 [], .token ";" 9],
      .named .classDeclaration none 11 71 [
        .token "class" 11, .named .identifier (some .name) 17 18 [],
        .named .classBody (some .body) 19 71 [
          .token "\x7b" 19,
          .named .classDeclaration none 21 44 [
            .token "class" 21, .named .identifier (some .name) 27 28 [],
            .named .classBody (some .body) 29 44 [
              .token "\x7b" 29,
              .named .classDeclaration none 31 42 [
                .token "class" 31, .named .identifier (some .name) 37 38 [],
                .named .classBody (some .body) 39 42 [.token "\x7b" 39, .token "\x7d" 41]],
              .token "\x7d" 43]],
          .named .methodDeclaration none 45 69 [
            .named .voidType (some .type) 45 49 [],
            .named .identifier (some .name) 50 51 [],
            .named .formalParameters (some .parameters) 51 53 [.token "(" 51, .token ")" 52],
            .named .block (some .body) 54 69 [
              .token "\x7b" 54,
              .named .classDeclaration none 56 67 [
                .token "class" 56, .named .identifier (some .name) 62 63 [],
                .named .classBody (some .body) 64 67 [.token "\x7b" 64, .token "\x7d" 66]],
              .token "\x7d" 68]],
          .token "\x7d" 70]],
      .named .classDeclaration none 72 83 [
        .token "class" 72, .named .identifier (some .name) 78 79 [],
        .named .classBody (some .body) 80 83 [.token "\x7b" 80, .token "\x7d" 82]]]

set_option maxRecDepth 100000 in
theorem packageFile_computed :
    (match declared packageFile, build packageFile with
    | .ok d, .ok e =>
      let ids := e.nonlocalTypes d.store.types.size
      decide (e.TellsApart ids ∧ ids = [⟨0⟩, ⟨1⟩, ⟨2⟩, ⟨4⟩] ∧ .type ⟨2⟩ ∈ e.bindings ∧
        (e.store.type ⟨2⟩).qualifiedName = "p.A.B.A")
    | _, _ => false) = true := by
  decide +kernel

/-- The innermost member is found by its whole name, and the type of the other name is not it. -/
theorem build_finds_qualified_packageFile :
    ∃ e, build packageFile = .ok e ∧ NamesApart packageFile e ∧
      (e.store.type ⟨0⟩).qualifiedName ≠ (e.store.type ⟨2⟩).qualifiedName ∧
      e.findType "p.A.B.A" = some ⟨2⟩ ∧
      ∀ place, outcome (resolveQualifiedType "p.A.B.A" place) e = (.ok ⟨2⟩, e) := by
  have computed := packageFile_computed
  split at computed
  · next d e declares built =>
    obtain ⟨apart, ids, filed, name⟩ := of_decide_eq_true computed
    have nonlocal : ∀ t ∈ ([⟨0⟩, ⟨1⟩, ⟨2⟩, ⟨4⟩] : List TypeId), IsNonlocal packageFile e t :=
      fun t member => (mem_nonlocalTypes declares).1 (ids ▸ member)
    have apart := apart.namesApart declares
    obtain ⟨distinct, -, found⟩ := build_finds_qualified built apart
    have outer := nonlocal ⟨0⟩ (by decide)
    have inner := nonlocal ⟨2⟩ (by decide)
    have found := found ⟨2⟩ inner filed e (.refl e)
    rw [name] at found
    exact ⟨e, built, apart, distinct _ _ outer inner (by decide), found⟩
  · cases computed

end Environment

end JavaScope
