import JavaScope.Proofs.Environment.Closed
import JavaScope.Proofs.Tree

/-!
# What stored types are composed of

An array type is made over an element, and a generic type is used with arguments. Such a type is
filed under a key that is put together from the keys of its parts, and what is filed under the key
is taken again. So the type that is stored for a declaration has the parts that its text resolves to
exactly if nothing with other parts is filed under their key when they are resolved.
-/

namespace JavaScope

/-! ## Compositions -/

/-- What a type is composed of: the innermost element of an array, or a generic type with its
arguments. -/
inductive Composition where
  | array (element : Option TypeId)
  | generic (base : Option TypeId) (arguments : List (Option TypeId))
  deriving DecidableEq

namespace Composition

/-- No part is missing, and a generic type has arguments. -/
def IsWhole : Composition → Prop
  | array element => element ≠ none
  | generic base arguments => base ≠ none ∧ arguments ≠ [] ∧ none ∉ arguments

/-- The composition without missing arguments. -/
def present : Composition → Composition
  | array element => array element
  | generic base arguments => generic base ((arguments.filterMap id).map some)

theorem map_some_filterMap_id {α : Type} {xs : List (Option α)} (h : none ∉ xs) :
    (xs.filterMap id).map some = xs := by
  induction xs with
  | nil => rfl
  | cons x xs ih =>
    cases x with
    | none => exact absurd List.mem_cons_self h
    | some a =>
      have rest := ih fun member => h (List.mem_cons_of_mem _ member)
      show some a :: (xs.filterMap id).map some = some a :: xs
      rw [rest]

theorem present_eq_self {p : Composition} (h : p.IsWhole) : p.present = p := by
  cases p with
  | array element => rfl
  | generic base arguments => rw [present, map_some_filterMap_id h.2.2]

/-- What has the parts that are there and nothing is missing of, has all parts. -/
theorem isWhole_of_eq_present {p : Composition} (h : p.present.IsWhole) (same : p = p.present) :
    p.IsWhole := by
  rw [same]
  exact h

end Composition

/-- The type is composed of these parts. -/
def TypeBinding.IsMadeOf (b : TypeBinding) : Composition → Prop
  | .array element => b.isArray = true ∧ b.elementType = element
  | .generic base arguments =>
    b.isParameterized = true ∧ b.genericType = base ∧ b.typeArguments = arguments

instance (b : TypeBinding) (p : Composition) : Decidable (b.IsMadeOf p) := by
  cases p <;> exact instDecidableAnd

theorem TypeBinding.isMadeOf_of_outline_eq {b b' : TypeBinding} (same : b'.outline = b.outline)
    (p : Composition) : b'.IsMadeOf p ↔ b.IsMadeOf p := by
  have kind : b'.kind = b.kind := (congrArg TypeBinding.kind same :)
  have element : b'.elementType = b.elementType := (congrArg elementType same :)
  have generic : b'.genericType = b.genericType := (congrArg genericType same :)
  have arguments : b'.typeArguments = b.typeArguments := (congrArg typeArguments same :)
  cases p <;> simp only [IsMadeOf, isArray, isParameterized, kind, element, generic, arguments]

/-! ## Keys of parts -/

namespace Store

/-- The type below all dimensions of an array, or the type itself. -/
def innermost (s : Store) (t : TypeId) : Option TypeId :=
  if (s.type t).isArray then (s.type t).elementType else some t

/-- The key of the array type with more dimensions over a type. -/
def arrayKey (s : Store) (element : Option TypeId) (dimensions : Int) : Except Fault String := do
  let t ← needed element
  let inner ← needed (s.innermost t)
  let own := if (s.type t).isArray then (s.type t).dimensions else 0
  return (← s.typeKey inner) ++ brackets (dimensions + own)

/-- The key of a generic type with at least one argument. -/
def useKey (s : Store) (base : Option TypeId) (arguments : List TypeId) : Except Fault String := do
  if arguments.isEmpty then throw .missing
  let base ← needed base
  let keys ← arguments.mapM s.typeKey
  return (← s.typeKey base) ++ "<" ++ String.intercalate "," keys ++ ">"

end Store

namespace Environment

/-- What the parts of a type resolve to, and the key of the type that is made of them. -/
structure Parts where
  composition : Composition
  key : Except Fault String

/-- The derived type that is filed under the key of some parts. -/
def filed (e : Environment) (p : Parts) : Option TypeId :=
  match p.key with
  | .ok key => e.derived.lookup key
  | .error _ => none

/-- The dimensions of an array type in the text. -/
def arrayDimensions (d : Document) (n : Node) : Nat :=
  bracketCount (d.textOf? (n.childByField .dimensions))

/-- The nodes of the arguments of a generic type. -/
def argumentNodes (n : Node) : List Node :=
  match n.childOfKind .typeArguments with
  | some list => list.namedChildren
  | none => []

/-- The node spells an array type or a generic type. -/
def IsComposite (d : Document) (n : Node) : Prop :=
  n.kind = .genericType ∨ n.kind = .arrayType ∧ 0 < arrayDimensions d n

open EnvironmentM

/-- Resolves the parts of a composite type. -/
def resolveParts (n place : Node) : EnvironmentM Parts := do
  let d ← read document
  if n.kind = .genericType then
    let base ← ofExcept (needed n.namedChildren.head?)
    let generic ← resolveType base place
    let arguments ← (argumentNodes n).mapM fun each => resolveType each place
    let s ← read store
    return ⟨.generic generic arguments, s.useKey generic (arguments.filterMap id)⟩
  else
    let element ← resolveType? (n.childByField .element) place
    let s ← read store
    return ⟨.array (element.bind s.innermost), s.arrayKey element (arrayDimensions d n)⟩

/-! ## Types in the text -/

theorem resolveType_array {n : Node} (kind : n.kind = .arrayType) (place : Node) :
    resolveType n place = (do
      let d ← read document
      let element ← resolveType? (n.childByField .element) place
      arrayOf element (arrayDimensions d n)) := by
  have found : n.childByField .element = n.children.find? fun c => c.field == some .element := by
    rw [Node.childByField, kind]
    rfl
  rw [resolveType, Node.fold_eq]
  simp only [typeReadingStep, kind, List.find?_map, Function.comp_def, found]
  cases n.children.find? fun c => c.field == some .element with
  | none => rfl
  | some element => rfl

theorem readAll_parts (list place : Node) :
    readAll place (list.fold typeReadingStep).parts = (do
      let found ← list.namedChildren.mapM fun each => resolveType each place
      return found.filterMap id) := by
  have parts : (list.fold typeReadingStep).parts = list.namedChildren.map resolveType := by
    rw [Node.fold_eq]
    simp only [typeReadingStep, List.filter_map, List.map_map, Node.namedChildren]
    rfl
  rw [readAll, parts, List.mapM_map]
  rfl

theorem resolveType_generic {n : Node} (kind : n.kind = .genericType) (place : Node) :
    resolveType n place = (do
      let base ← ofExcept (needed n.namedChildren.head?)
      let generic ← resolveType base place
      let arguments ← (argumentNodes n).mapM fun each => resolveType each place
      parameterized generic (arguments.filterMap id)) := by
  have head : ((n.children.map fun c => (c, c.fold typeReadingStep)).filter (·.1.isNamed)).head? =
      n.namedChildren.head?.map fun c => (c, c.fold typeReadingStep) := by
    rw [List.filter_map, List.head?_map]
    rfl
  rw [resolveType, Node.fold_eq]
  simp only [typeReadingStep, kind, head, List.find?_map, Function.comp_def, argumentNodes,
    Node.childOfKind]
  cases n.namedChildren.head? with
  | none => rfl
  | some base =>
    cases n.children.find? fun c => c.kind == .typeArguments with
    | none => rfl
    | some list =>
      simp only [Option.map_some, readAll_parts, bind_assoc, pure_bind]
      rfl

/-! ## Types made of parts -/

/-- How a type comes from its parts: a type is filed under their key and taken again, or a type is
made of them, or there is nothing to make a type of. -/
inductive Arranged (e : Environment) (p : Parts) : Option TypeId → Environment → Prop
  | filed {t : TypeId} : p.composition.present.IsWhole → e.filed p = some t → Arranged e p (some t) e
  | made {t : TypeId} {e' : Environment} : p.composition.present.IsWhole → e.filed p = none →
      (∀ q, (e'.store.type t).IsMadeOf q ↔ q = p.composition.present) → Arranged e p (some t) e'
  | missing : p.composition = .array none → e.filed p = none → Arranged e p none e
  | bare {base : Option TypeId} {arguments : List (Option TypeId)} :
      p.composition = .generic base arguments → arguments.filterMap id = [] → e.filed p = none →
      Arranged e p base e

/-- A derived type is filed already, or it is made and filed. -/
theorem outcome_derivedType {e e' : Environment} {key : String} {b : TypeBinding} {t : TypeId}
    (run : outcome (derivedType key b) e = (.ok t, e')) :
    e.derived.lookup key = some t ∧ e' = e ∨
      e.derived.lookup key = none ∧ e'.store.type t = b ∧ e'.derived = (key, t) :: e.derived := by
  rw [derivedType, outcome_bind_of_ok (outcome_get e)] at run
  cases found : e.derived.lookup key with
  | some u =>
    rw [found] at run
    cases run
    exact .inl ⟨rfl, rfl⟩
  | none =>
    rw [found] at run
    cases run
    exact .inr ⟨rfl, Store.type_addType_self e.store b, rfl⟩

theorem arranged_flatArrayOf {e e' : Environment} {inner t : TypeId} {dimensions : Int} {p : Parts}
    (composition : p.composition = .array (some inner))
    (key : p.key = (do return (← e.store.typeKey inner) ++ brackets dimensions))
    (run : outcome (flatArrayOf inner dimensions) e = (.ok t, e')) : Arranged e p (some t) e' := by
  have whole : p.composition.present.IsWhole := by
    rw [composition]
    exact Option.some_ne_none inner
  have store : outcome (read store) e = (.ok e.store, e) := rfl
  rw [flatArrayOf, outcome_bind_of_ok store] at run
  obtain ⟨text, hkey, run⟩ := outcome_ofExcept_bind_eq_ok.1 run
  have filed : e.filed p = e.derived.lookup (text ++ brackets dimensions) := by
    rw [Environment.filed, key, hkey]
    rfl
  rcases outcome_derivedType run with ⟨found, rfl⟩ | ⟨unfiled, made, -⟩
  · exact .filed whole (filed.trans found)
  · refine .made whole (filed.trans unfiled) fun q => ?_
    rw [made, composition]
    cases q with
    | array element =>
      constructor
      · rintro ⟨-, rfl⟩
        rfl
      · rintro ⟨⟩
        exact ⟨rfl, rfl⟩
    | generic base arguments =>
      constructor
      · rintro ⟨⟨⟩, -⟩
      · rintro ⟨⟩

/-- An array is made over the innermost element, and an array as element adds its own dimensions. -/
theorem outcome_arrayOf_eq_ok {e e' : Environment} {element : TypeId} {o : Option TypeId}
    {dimensions : Int} (positive : 0 < dimensions)
    (run : outcome (arrayOf (some element) dimensions) e = (.ok o, e')) :
    ∃ inner t, o = some t ∧ e.store.innermost element = some inner ∧
      outcome (flatArrayOf inner (dimensions +
        if (e.store.type element).isArray then (e.store.type element).dimensions else 0)) e =
          (.ok t, e') := by
  have some_dimensions : ¬ dimensions ≤ 0 := by omega
  have store : outcome (read store) e = (.ok e.store, e) := rfl
  rw [arrayOf] at run
  simp only [some_dimensions, if_false] at run
  rw [outcome_bind_of_ok store] at run
  by_cases nested : (e.store.type element).isArray
  · rw [if_pos nested] at run
    obtain ⟨inner, hinner, run⟩ := outcome_ofExcept_bind_eq_ok.1 run
    obtain ⟨t, e₂, run, done⟩ := outcome_bind_eq_ok.1 run
    cases done
    rw [Store.innermost, if_pos nested, if_pos nested]
    exact ⟨inner, t, rfl, needed_eq_ok.1 hinner, run⟩
  · rw [if_neg nested] at run
    obtain ⟨t, e₂, run, done⟩ := outcome_bind_eq_ok.1 run
    cases done
    rw [Store.innermost, if_neg nested, if_neg nested, Int.add_zero]
    exact ⟨element, t, rfl, rfl, run⟩

theorem arranged_arrayOf {e e' : Environment} {element o : Option TypeId} {dimensions : Int}
    (positive : 0 < dimensions) (run : outcome (arrayOf element dimensions) e = (.ok o, e')) :
    Arranged e ⟨.array (element.bind e.store.innermost), e.store.arrayKey element dimensions⟩ o
      e' := by
  cases element with
  | none =>
    cases run
    exact .missing rfl rfl
  | some element =>
    obtain ⟨inner, t, rfl, innermost, run⟩ := outcome_arrayOf_eq_ok positive run
    refine arranged_flatArrayOf (by simp [innermost]) ?_ run
    show (do
      let inner ← needed (e.store.innermost element)
      return (← e.store.typeKey inner) ++ brackets (dimensions +
        if (e.store.type element).isArray then (e.store.type element).dimensions else 0)) = _
    rw [innermost]
    rfl

theorem arranged_parameterized {e e' : Environment} {base o : Option TypeId}
    {arguments : List (Option TypeId)}
    (run : outcome (parameterized base (arguments.filterMap id)) e = (.ok o, e')) :
    Arranged e ⟨.generic base arguments, e.store.useKey base (arguments.filterMap id)⟩ o e' := by
  by_cases given : arguments.filterMap id = []
  · rw [parameterized, given] at run
    cases run
    exact .bare rfl given (by rw [given]; rfl)
  · have some_arguments : (arguments.filterMap id).isEmpty = false := by simpa using given
    rw [parameterized] at run
    simp only [some_arguments, Bool.false_eq_true, if_false] at run
    obtain ⟨generic, hgeneric, run⟩ := outcome_ofExcept_bind_eq_ok.1 run
    have store : outcome (read store) e = (.ok e.store, e) := rfl
    rw [outcome_bind_of_ok store] at run
    obtain ⟨keys, hkeys, run⟩ := outcome_ofExcept_bind_eq_ok.1 run
    obtain ⟨text, htext, run⟩ := outcome_ofExcept_bind_eq_ok.1 run
    obtain ⟨t, e₁, filing, done⟩ := outcome_bind_eq_ok.1 run
    cases done
    have hbase := needed_eq_ok.1 hgeneric
    subst hbase
    have whole : (Composition.generic (some generic) arguments).present.IsWhole := by
      refine ⟨Option.some_ne_none generic, ?_, ?_⟩
      · simpa using given
      · simp
    have key : e.store.useKey (some generic) (arguments.filterMap id) =
        .ok (text ++ "<" ++ String.intercalate "," keys ++ ">") := by
      simp only [Store.useKey, some_arguments, Bool.false_eq_true, if_false]
      show (do
        let keys ← (arguments.filterMap id).mapM e.store.typeKey
        return (← e.store.typeKey generic) ++ "<" ++ String.intercalate "," keys ++ ">") = _
      rw [hkeys]
      show (do return (← e.store.typeKey generic) ++ "<" ++ String.intercalate "," keys ++ ">") = _
      rw [htext]
      rfl
    have filed : e.filed ⟨.generic (some generic) arguments, e.store.useKey (some generic)
        (arguments.filterMap id)⟩ =
          e.derived.lookup (text ++ "<" ++ String.intercalate "," keys ++ ">") := by
      rw [Environment.filed, key]
    rcases outcome_derivedType filing with ⟨found, rfl⟩ | ⟨unfiled, made, -⟩
    · exact .filed whole (filed.trans found)
    · refine .made whole (filed.trans unfiled) fun q => ?_
      rw [made]
      cases q with
      | array element =>
        constructor
        · rintro ⟨⟨⟩, -⟩
        · rintro ⟨⟩
      | generic base' arguments' =>
        constructor
        · rintro ⟨-, rfl, rfl⟩
          rfl
        · rintro ⟨⟩
          exact ⟨rfl, rfl, rfl⟩

/-- A composite type in the text is arranged from what its parts resolve to. -/
theorem resolveType_arranges {e e' : Environment} {n place : Node} {o : Option TypeId}
    (composite : IsComposite e.document n) (run : outcome (resolveType n place) e = (.ok o, e')) :
    ∃ p e₁, outcome (resolveParts n place) e = (.ok p, e₁) ∧ Arranged e₁ p o e' := by
  have document : outcome (read document) e = (.ok e.document, e) := rfl
  have store : ∀ e : Environment, outcome (read store) e = (.ok e.store, e) := fun _ => rfl
  rcases composite with kind | ⟨kind, positive⟩
  · rw [resolveType_generic kind] at run
    obtain ⟨base, hbase, run⟩ := outcome_ofExcept_bind_eq_ok.1 run
    obtain ⟨generic, e₁, resolved, run⟩ := outcome_bind_eq_ok.1 run
    obtain ⟨arguments, e₂, given, run⟩ := outcome_bind_eq_ok.1 run
    refine ⟨_, e₂, ?_, arranged_parameterized run⟩
    rw [resolveParts, outcome_bind_of_ok document, if_pos kind]
    refine outcome_ofExcept_bind_eq_ok.2 ⟨base, hbase, ?_⟩
    rw [outcome_bind_of_ok resolved, outcome_bind_of_ok given, outcome_bind_of_ok (store e₂)]
    rfl
  · rw [resolveType_array kind, outcome_bind_of_ok document] at run
    obtain ⟨element, e₁, resolved, run⟩ := outcome_bind_eq_ok.1 run
    refine ⟨_, e₁, ?_, arranged_arrayOf (Int.natCast_pos.2 positive) run⟩
    have other : n.kind ≠ .genericType := by simp [kind]
    rw [resolveParts, outcome_bind_of_ok document, if_neg other, outcome_bind_of_ok resolved,
      outcome_bind_of_ok (store e₁)]
    rfl

/-! ## Stored types -/

/-- The type of a declaration is spelled at a node, and read as seen from a place. Constructors and
declarations with dimensions of their own are left out. -/
inductive Spells (d : Document) (s : Store) : BindingId → Node → (place type : Node) → Prop
  | method {m : MethodId} {n type : Node} : (s.method m).isConstructor = false →
      n.childByField .type = some type → Spells d s (.method m) n n type
  | «variable» {v : VariableId} {n place type : Node} : declarationNode n = some place →
      typeNodeOf place = some type → extraDimensions d n place = 0 →
      Spells d s (.variable v) n place type

theorem arrayOf_zero (element : Option TypeId) : arrayOf element 0 = pure element := by
  cases element <;> rfl

/-- The parameters of a method leave its return type as it is. -/
theorem keeps_returnType (m : MethodId) (o : Option TypeId) (n : Node) :
    Keeps (fun e : Environment => e.store.storedType (.method m) = o) (completeParameter m n) := by
  refine Keeps.bind (fun e he => ?_) fun type => Keeps.bind (fun e he => he) fun d =>
    .modify fun e he => ?_
  · rw [(keeps_variableType (I := e.Grows) n e (.refl e)).store.storedType_eq]
    exact he
  · refine Eq.trans ?_ he
    show ((e.store.modifyMethod m _).method m).returnType = (e.store.method m).returnType
    rcases Store.method_modifyMethod_cases e.store m (fun b => { b with
        parameterTypes := b.parameterTypes ++ [type]
        parameterNames := b.parameterNames ++ [d.textOf? n.nameNode]
        isVarargs := b.isVarargs || n.kind == .spreadParameter }) m with h | ⟨-, -, h⟩ <;> rw [h]

/-- Completing a declaration stores the type that it spells. -/
theorem complete_stores {e e' : Environment} {b : BindingId} {n place type : Node}
    (has : e.store.Has b) (spelled : Spells e.document e.store b n place type)
    (run : outcome (complete b n) e = (.ok (), e')) :
    ∃ o e₁, outcome (resolveType type place) e = (.ok o, e₁) ∧ e₁.Outlines e' ∧
      e'.store.storedType b = o := by
  have document : outcome (read document) e = (.ok e.document, e) := rfl
  have store : outcome (read store) e = (.ok e.store, e) := rfl
  cases spelled with
  | method constructed spelled =>
    next m =>
    rw [complete, completeMethod, outcome_bind_of_ok store] at run
    simp only [constructed, Bool.false_eq_true, if_false, spelled] at run
    obtain ⟨o, e₁, resolved, run⟩ := outcome_bind_eq_ok.1 run
    have grown : e.Grows e₁ := keeps_resolveType type n |>.ensures e (.refl e) o e₁ resolved
    refine ⟨o, e₁, resolved, ?_⟩
    obtain ⟨_, e₂, ⟨⟩, run⟩ := outcome_bind_eq_ok.1 run
    have returns : Keeps (fun e => e₁.Completes (.method m) e ∧ e.store.storedType (.method m) = o)
        (match n.childByField .parameters with
        | some list =>
          (list.namedChildren.filter fun each => each.kind.isMethodParameter).forM (completeParameter m)
        | none => return) := by
      split
      · refine .forM fun each _ e he => ⟨?_, ?_⟩
        · exact keeps_completeParameter each e he.1
        · exact keeps_returnType m o each e he.2
      · exact .pure _
    have last := returns.ensures _ ⟨?_, ?_⟩ _ _ run
    · exact ⟨last.1.outlines, last.2⟩
    · exact Outlasts.modifyMethod rfl (by intro x; rfl) e₁ (Completes.refl _ e₁)
    · have there := grown.store.has has
      show (Store.method _ m).returnType = o
      rw [Store.method_modifyMethod_of_has there]
  | «variable» declared spelled plain =>
    next v =>
    obtain ⟨o, e₁, typed, run⟩ := outcome_bind_eq_ok.1 run
    cases run
    rw [variableType, outcome_bind_of_ok document, declared] at typed
    obtain ⟨_, ⟨⟩, typed⟩ := outcome_ofExcept_bind_eq_ok.1 typed
    rw [spelled] at typed
    obtain ⟨o', e₂, resolved, flat⟩ := outcome_bind_eq_ok.1 typed
    -- without own dimensions the array over the type is the type itself
    rw [plain, Int.natCast_zero, arrayOf_zero] at flat
    cases flat
    have grown : e.Grows e₁ := keeps_resolveType type place |>.ensures e (.refl e) o e₁ resolved
    refine ⟨o, e₁, resolved, ?_, ?_⟩
    · exact Completes.outlines
        (Outlasts.modifyVariable rfl (by intro x; rfl) e₁ (Completes.refl (.variable v) e₁))
    · have there := grown.store.has has
      show (Store.variable _ v).type = o
      rw [Store.variable_modifyVariable_of_has there]

/-! ## Built environments -/

section Built

variable {c : Context} {d : Draft} {e : Environment} {b : BindingId} {n : Node}
  {pre post : List (BindingId × Node)}

/-- Completing other declarations keeps the outline and the type that is stored for a declaration. -/
theorem completes_others {e' : Environment} (others : ∀ entry ∈ post, entry.1 ≠ b)
    (run : outcome (post.forM fun (b, n) => complete b n) e = (.ok (), e')) :
    e.Outlines e' ∧ e'.store.storedType b = e.store.storedType b := by
  have kept : Keeps (fun e' => e.Outlines e' ∧ e'.store.storedType b = e.store.storedType b)
      (post.forM fun (b, n) => complete b n) := by
    refine .forM fun entry member e₁ he => ?_
    have completed := keeps_complete entry.1 entry.2 e₁ (Completes.refl entry.1 e₁)
    exact ⟨he.1.trans completed.outlines,
      (completed.others b (others entry member).symm).trans he.2⟩
  exact kept.ensures e ⟨.refl e, rfl⟩ () e' run

/-- The second pass comes to every declaration once, with the declarations before it completed. -/
theorem build_completes (built : build c = .ok e) (declares : declared c = .ok d)
    (pending : d.pending = pre ++ (b, n) :: post) :
    ∃ e₁ e₂, outcome (pre.forM fun (b, n) => complete b n) d.toEnvironment = (.ok (), e₁) ∧
      outcome (complete b n) e₁ = (.ok (), e₂) ∧ d.toEnvironment.Outlines e₁ ∧ e₂.Outlines e ∧
      e.store.storedType b = e₂.store.storedType b := by
  obtain ⟨d', declares', completes⟩ := build_eq_ok built
  cases declares.symm.trans declares'
  have once := (declared_sound declares).waits.once
  rw [pending, List.map_append, List.map_cons, List.nodup_append, List.nodup_cons] at once
  rw [pending, List.forM_eq_forM, List.forM_append] at completes
  obtain ⟨⟨⟩, e₁, first, rest⟩ := outcome_bind_eq_ok.1 completes
  obtain ⟨⟨⟩, e₂, completed, rest⟩ := outcome_bind_eq_ok.1 rest
  have others : ∀ entry ∈ post, entry.1 ≠ b := by
    rintro entry member rfl
    exact once.2.1.1 (List.mem_map.2 ⟨entry, member, rfl⟩)
  obtain ⟨outlines, stored⟩ := completes_others others rest
  refine ⟨e₁, e₂, first, completed, ?_, outlines, stored⟩
  exact (Keeps.forM fun entry _ => outlines_complete entry.1 entry.2).ensures _ (.refl _) () e₁ first

/-- In a built environment a generic type is used only with arguments. -/
theorem build_uses (built : build c = .ok e) (t : TypeId)
    (used : (e.store.type t).isParameterized = true) :
    ∃ given ≠ [], (e.store.type t).typeArguments = given.map some := by
  obtain ⟨d, declares, completes⟩ := build_eq_ok built
  have outlines : d.toEnvironment.Outlines e :=
    (Keeps.forM fun entry _ => outlines_complete entry.1 entry.2).ensures _ (.refl _) () e completes
  by_cases old : t.index < d.store.types.size
  · have plain := ((declared_sound declares).plain t).generic
    have same : (e.store.type t).genericType = (d.store.type t).genericType :=
      (congrArg TypeBinding.genericType (outlines.store.type t old) :)
    rw [TypeBinding.isParameterized, same, plain] at used
    cases used
  · exact (outlines.store.bare t (Nat.le_of_not_lt old)).arguments used

/-- What is composed of parts lacks none of them. -/
theorem isWhole_of_isMadeOf (built : build c = .ok e) {t : TypeId} {p : Composition}
    (whole : p.present.IsWhole) (made : (e.store.type t).IsMadeOf p) : p.IsWhole := by
  cases p with
  | array element => exact whole
  | generic base arguments =>
    obtain ⟨used, rfl, rfl⟩ := made
    obtain ⟨given, some_given, same⟩ := build_uses built t used
    rw [same]
    refine ⟨whole.1, by simpa using some_given, by simp⟩

/-- The type that is stored for a declaration is composed of these parts. -/
def Stores (e : Environment) (b : BindingId) (p : Composition) : Prop :=
  ∃ t, e.store.storedType b = some t ∧ (e.store.type t).IsMadeOf p

instance (e : Environment) (b : BindingId) (p : Composition) : Decidable (e.Stores b p) :=
  decidable_of_iff (∃ t ∈ e.store.storedType b, (e.store.type t).IsMadeOf p) Iff.rfl

/-- The type that is stored for a declaration is composed of what its parts resolve to while it is
completed, exactly if none of them is missing and no type of other parts is filed under their key by
then. It is composed of what the parts resolve to later exactly if the filed type is, or if nothing
was filed and they resolve as before. -/
theorem build_composes {place type : Node} (built : build c = .ok e) (declares : declared c = .ok d)
    (pending : d.pending = pre ++ (b, n) :: post)
    (spelled : Spells c.document d.store b n place type) (composite : IsComposite c.document type) :
    ∃ e₁ p e₂, outcome (pre.forM fun (b, n) => complete b n) d.toEnvironment = (.ok (), e₁) ∧
      outcome (resolveParts type place) e₁ = (.ok p, e₂) ∧
      (e.Stores b p.composition ↔ p.composition.IsWhole ∧
        ∀ t, e₂.filed p = some t → (e₂.store.type t).IsMadeOf p.composition) ∧
      (p.composition.IsWhole → ∀ later e', outcome (resolveParts type place) e = (.ok later, e') →
        (e.Stores b later.composition ↔
          (∀ t, e₂.filed p = some t → (e₂.store.type t).IsMadeOf later.composition) ∧
            (e₂.filed p = none → later.composition = p.composition))) := by
  have start := declared_sound declares
  obtain ⟨e₁, e₄, first, completed, before, after, same⟩ := build_completes built declares pending
  have document : e₁.document = c.document := by
    rw [Environment.document, before.context, start.sound.context]
  have has : e₁.store.Has b := by
    refine (start.waits.has b ?_).mono before.store.size (Nat.le_of_eq before.store.vars.symm)
      (Nat.le_of_eq before.store.methods.symm)
    rw [pending]
    simp
  have spelled₁ : Spells e₁.document e₁.store b n place type := by
    rw [document]
    cases spelled with
    | method constructed spelled =>
      exact .method ((congrArg MethodBinding.isConstructor (before.store.method_eq _) :).trans
        constructed) spelled
    | «variable» declared spelled plain => exact .variable declared spelled plain
  obtain ⟨o, e₃, resolved, kept, stored⟩ := complete_stores has spelled₁ completed
  obtain ⟨p, e₂, parts, arranged⟩ := resolveType_arranges (document ▸ composite) resolved
  have closed : e₃.ClosedWith (o.toList ++ []) := by
    have closed₁ : e₁.ClosedWith [] :=
      Ensures.forM (fun each _ => ensures_complete each.1 each.2) d.toEnvironment
        ⟨start.sound.closed, by rintro _ ⟨⟩⟩ _ _ first
    exact ensures_resolveType type place e₁ closed₁ o e₃ resolved
  have stores : ∀ q, e.Stores b q ↔ ∃ t, o = some t ∧ (e₃.store.type t).IsMadeOf q := by
    intro q
    rw [Stores, same, stored]
    refine exists_congr fun t => and_congr_right fun ht => ?_
    subst ht
    have there : e₃.store.Has (.type t) := closed.2 t (by simp)
    exact TypeBinding.isMadeOf_of_outline_eq ((kept.trans after).store.type t there) q
  refine ⟨e₁, p, e₂, first, parts, ?_⟩
  cases arranged with
  | filed whole found =>
    next t =>
    -- the stored type was made for an earlier declaration
    have stores' : ∀ q, e.Stores b q ↔ (e₃.store.type t).IsMadeOf q := by simpa using stores
    have filed : ∀ q, (∀ u, e₃.filed p = some u → (e₃.store.type u).IsMadeOf q) ↔
        (e₃.store.type t).IsMadeOf q := by simp [found]
    refine ⟨?_, fun _ later e' _ => ?_⟩
    · rw [filed, stores']
      refine ⟨fun made => ⟨?_, made⟩, And.right⟩
      obtain ⟨u, -, made⟩ := (stores' p.composition).2 made
      exact isWhole_of_isMadeOf built whole made
    · rw [filed, stores', found]
      exact ⟨fun made => ⟨made, by rintro ⟨⟩⟩, And.left⟩
  | made whole unfiled made =>
    next t =>
    -- the stored type is made here, of the parts that are present
    have stores' : ∀ q, e.Stores b q ↔ q = p.composition.present := by
      intro q
      rw [stores, ← made]
      simp
    refine ⟨?_, fun complete later e' _ => ?_⟩
    · rw [stores', unfiled]
      exact ⟨fun same => ⟨Composition.isWhole_of_eq_present whole same, by rintro _ ⟨⟩⟩,
        fun h => (Composition.present_eq_self h.1).symm⟩
    · rw [stores', unfiled, Composition.present_eq_self complete]
      exact ⟨fun same => ⟨by rintro _ ⟨⟩, fun _ => same⟩, fun h => h.2 rfl⟩
  | missing composition unfiled =>
    -- without the element or the generic type nothing is stored
    have incomplete : ¬ p.composition.IsWhole := by
      rw [composition]
      exact fun h => h rfl
    refine ⟨⟨fun h => ?_, fun h => absurd h.1 incomplete⟩, fun h => absurd h incomplete⟩
    obtain ⟨t, ⟨⟩, -⟩ := (stores _).1 h
  | bare composition given unfiled =>
    next arguments =>
    -- without arguments the generic type itself is stored
    have incomplete : ¬ p.composition.IsWhole := by
      rw [composition]
      intro h
      apply h.2.1
      rw [← Composition.map_some_filterMap_id h.2.2, given]
      rfl
    refine ⟨⟨fun h => ?_, fun h => absurd h.1 incomplete⟩, fun h => absurd h incomplete⟩
    obtain ⟨t, -, made⟩ := h
    rw [composition] at made
    obtain ⟨some_arguments, some_given, same⟩ := build_uses built t made.1
    rw [← made.2.2, same] at given
    exact absurd (by simpa using given) some_given

end Built

/-! ## Overloads that share a return type -/

/-- `class A { <T> B<T> m() { } <T> B<T> m(int a) { } }` -/
def overloads : Context :=
  .ofFile "class A \x7b <T> B<T> m() \x7b \x7d <T> B<T> m(int a) \x7b \x7d \x7d" <|
    .named .program none 0 50 [
      .named .classDeclaration none 0 50 [
        .token "class" 0, .named .identifier (some .name) 6 7 [],
        .named .classBody (some .body) 8 50 [
          .token "\x7b" 8,
          .named .methodDeclaration none 10 26 [
            .named .typeParameters (some (.other "type_parameters")) 10 13 [
              .token "<" 10,
              .named .typeParameter none 11 12 [.named .typeIdentifier none 11 12 []],
              .token ">" 12],
            .named .genericType (some .type) 14 18 [
              .named .typeIdentifier none 14 15 [],
              .named .typeArguments none 15 18 [
                .token "<" 15, .named .typeIdentifier none 16 17 [], .token ">" 17]],
            .named .identifier (some .name) 19 20 [],
            .named .formalParameters (some .parameters) 20 22 [.token "(" 20, .token ")" 21],
            .named .block (some .body) 23 26 [.token "\x7b" 23, .token "\x7d" 25]],
          .named .methodDeclaration none 27 48 [
            .named .typeParameters (some (.other "type_parameters")) 27 30 [
              .token "<" 27,
              .named .typeParameter none 28 29 [.named .typeIdentifier none 28 29 []],
              .token ">" 29],
            .named .genericType (some .type) 31 35 [
              .named .typeIdentifier none 31 32 [],
              .named .typeArguments none 32 35 [
                .token "<" 32, .named .typeIdentifier none 33 34 [], .token ">" 34]],
            .named .identifier (some .name) 36 37 [],
            .named .formalParameters (some .parameters) 37 44 [
              .token "(" 37,
              .named .formalParameter none 38 43 [
                .named .integralType (some .type) 38 41 [.token "int" 38],
                .named .identifier (some .name) 42 43 []],
              .token ")" 43],
            .named .block (some .body) 45 48 [.token "\x7b" 45, .token "\x7d" 47]],
          .token "\x7d" 49]]]

set_option maxRecDepth 100000 in
theorem overloads_computed :
    (match declared overloads, build overloads with
    | .ok d, .ok e =>
      match d.pending.drop 3 with
      | (.method m, n) :: _ =>
        match n.childByField .type,
            outcome ((d.pending.take 3).forM fun (b, n) => complete b n) d.toEnvironment with
        | some type, (.ok (), e₁) =>
          match outcome (resolveParts type n) e₁, outcome (resolveParts type n) e with
          | (.ok p, _), (.ok later, _) =>
            !(d.store.method m).isConstructor && type.kind == .genericType &&
              !decide (e.Stores (.method m) p.composition) &&
                !decide (e.Stores (.method m) later.composition)
          | _, _ => false
        | _, _ => false
      | _ => false
    | _, _ => false) = true := by
  decide +kernel

theorem overloads_resolved :
    ∃ d e pre post b n type e₁ e₂ e' p later, declared overloads = .ok d ∧
      build overloads = .ok e ∧ d.pending = pre ++ (b, n) :: post ∧
      Spells overloads.document d.store b n n type ∧ IsComposite overloads.document type ∧
      outcome (pre.forM fun (b, n) => complete b n) d.toEnvironment = (.ok (), e₁) ∧
      outcome (resolveParts type n) e₁ = (.ok p, e₂) ∧
      outcome (resolveParts type n) e = (.ok later, e') ∧
      ¬ e.Stores b p.composition ∧ ¬ e.Stores b later.composition := by
  have computed := overloads_computed
  split at computed
  · next d e declares built =>
    split at computed
    · next m n post rest =>
      split at computed
      · next type e₁ spelled first =>
        split at computed
        · next p e₂ later e' parts again =>
          simp only [Bool.and_eq_true, Bool.not_eq_true', beq_iff_eq, decide_eq_false_iff_not]
            at computed
          obtain ⟨⟨⟨constructed, kind⟩, apart⟩, apart'⟩ := computed
          refine ⟨d, e, d.pending.take 3, post, .method m, n, type, e₁, e₂, e', p, later, declares,
            built, ?_, .method constructed spelled, .inl kind, first, parts, again, apart, apart'⟩
          rw [← rest, List.take_append_drop]
        · cases computed
      · cases computed
    · cases computed
  · cases computed

/-- The second method shares the return type of the first one, which mentions the type parameter of
the first one. -/
theorem overloads_share_return_type :
    ¬ ∀ (c : Context) (d : Draft) (e : Environment) (pre post : List (BindingId × Node))
        (b : BindingId) (n place type : Node) (e₁ e₂ e' : Environment) (p later : Parts),
      declared c = .ok d → build c = .ok e → d.pending = pre ++ (b, n) :: post →
        Spells c.document d.store b n place type → IsComposite c.document type →
          outcome (pre.forM fun (b, n) => complete b n) d.toEnvironment = (.ok (), e₁) →
            outcome (resolveParts type place) e₁ = (.ok p, e₂) →
              outcome (resolveParts type place) e = (.ok later, e') →
                e.Stores b p.composition ∨ e.Stores b later.composition := by
  intro claim
  obtain ⟨d, e, pre, post, b, n, type, e₁, e₂, e', p, later, declares, built, pending, spelled,
    composite, first, parts, again, apart, apart'⟩ := overloads_resolved
  rcases claim _ d e pre post b n n type e₁ e₂ e' p later declares built pending spelled composite
    first parts again with stored | stored
  · exact apart stored
  · exact apart' stored

theorem build_composes_overloads :
    ∃ d e pre post b n type, declared overloads = .ok d ∧ build overloads = .ok e ∧
      d.pending = pre ++ (b, n) :: post ∧ Spells overloads.document d.store b n n type ∧
      IsComposite overloads.document type ∧
      ∃ e₁ p e₂, outcome (pre.forM fun (b, n) => complete b n) d.toEnvironment = (.ok (), e₁) ∧
        outcome (resolveParts type n) e₁ = (.ok p, e₂) ∧
        (e.Stores b p.composition ↔ p.composition.IsWhole ∧
          ∀ t, e₂.filed p = some t → (e₂.store.type t).IsMadeOf p.composition) ∧
        (p.composition.IsWhole → ∀ later e', outcome (resolveParts type n) e = (.ok later, e') →
          (e.Stores b later.composition ↔
            (∀ t, e₂.filed p = some t → (e₂.store.type t).IsMadeOf later.composition) ∧
              (e₂.filed p = none → later.composition = p.composition))) := by
  obtain ⟨d, e, pre, post, b, n, type, -, -, -, -, -, declares, built, pending, spelled, composite,
    -⟩ := overloads_resolved
  exact ⟨d, e, pre, post, b, n, type, declares, built, pending, spelled, composite,
    build_composes built declares pending spelled composite⟩

end Environment

end JavaScope
