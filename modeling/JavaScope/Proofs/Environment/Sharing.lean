import JavaScope.Proofs.Binding.Signature
import JavaScope.Proofs.Environment.Composition
import JavaScope.Proofs.Environment.Keys

/-!
# Derived types are shared

Arrays, generic types with arguments and primitive types are filed in one table, under keys that are
put together from the keys of their parts. As long as every type is filed under the key that it
has, what is derived from parts with equal keys is one type, whatever is derived in between.
-/

namespace JavaScope

theorem brackets_add {j k : Int} (hj : 0 ≤ j) (hk : 0 ≤ k) :
    brackets (j + k) = brackets j ++ brackets k := by
  apply String.toList_injective
  rw [String.toList_append, toList_brackets, toList_brackets, toList_brackets, Int.toNat_add hj hk,
    List.replicate_add, List.flatMap_append]

@[simp] theorem brackets_zero : brackets 0 = "" := rfl

/-- The type is no array, or an array with at least one dimension. -/
def TypeBinding.IsProper (b : TypeBinding) : Prop :=
  b.isArray = true → 1 ≤ b.dimensions

theorem TypeBinding.IsProper.of_outline_eq {b b' : TypeBinding} (h : b.IsProper)
    (same : b'.outline = b.outline) : b'.IsProper := by
  have sameKind : b'.isArray = b.isArray := congrArg (·.kind == .array) same
  have sameDimensions : b'.dimensions = b.dimensions := (congrArg dimensions same :)
  rw [IsProper, sameKind, sameDimensions]
  exact h

namespace Store

/-! ## Keys of new types -/

/-- The type is no array, or an array with at least one dimension. -/
def IsProper (s : Store) (t : TypeId) : Prop :=
  (s.type t).IsProper

/-- The type links to what is in the store and, added to it, has this key. -/
structure Keyed (s : Store) (key : String) (b : TypeBinding) : Prop where
  bare : b.IsBare
  links : ∀ u ∈ b.links, s.Has (.type u)
  told : (s.addType b).2.typeKey (s.addType b).1 = .ok key

theorem typeKey_addType (s : Store) (b : TypeBinding) :
    (s.addType b).2.typeKey (s.addType b).1 =
      (s.addType b).2.keyWith (s.size + 2) (.type (s.addType b).1) := by
  have size : (s.addType b).2.size = s.size + 1 := by
    show (s.addType b).2.types.size + s.vars.size + s.methods.size = _
    rw [size_addType, Store.size]
    omega
  rw [typeKey, Store.key, size]

theorem keyed_primitive (s : Store) (name : String) :
    s.Keyed name { name := name, qualifiedName := name, kind := .primitive } where
  bare := ⟨rfl, rfl, rfl, rfl, nofun, fun _ => rfl⟩
  links := nofun
  told := by
    rw [typeKey_addType, keyWith, type_addType_self]
    rfl

variable {s : Store} (closed : s.Closed)

include closed

theorem keyed_array {element : TypeId} {key : String} (has : s.Has (.type element))
    (told : s.typeKey element = .ok key) {b : TypeBinding} {dimensions : Int} (bare : b.IsBare)
    (kind : b.kind = .array) (made : b.elementType = some element)
    (deep : b.dimensions = dimensions) (links : b.links = [element]) :
    s.Keyed (key ++ brackets dimensions) b where
  bare := bare
  links u member := by
    rw [links, List.mem_singleton] at member
    rw [member]
    exact has
  told := by
    have grows := (Grows.refl s).addType bare
    have inner := keyWith_of_grows closed grows (Nat.lt_succ_self s.size) has told
    rw [typeKey_addType, keyWith, type_addType_self]
    simp only [kind, made, deep, needed]
    show (do return (← (s.addType b).2.keyWith (s.size + 1) (.type element)) ++ _) = _
    rw [inner]
    rfl

theorem keyed_use {generic : TypeId} {arguments : List TypeId} {key : String} {keys : List String}
    (has : s.Has (.type generic)) (hasArguments : ∀ t ∈ arguments, s.Has (.type t))
    (told : s.typeKey generic = .ok key) (toldArguments : arguments.mapM s.typeKey = .ok keys)
    {b : TypeBinding} (bare : b.IsBare) (kind : b.kind = .parameterized)
    (made : b.genericType = some generic) (given : b.typeArguments = arguments.map some)
    (links : ∀ u ∈ b.links,
      (s.type generic).declaringClass = some u ∨ u ∈ arguments ∨ u = generic) :
    s.Keyed (key ++ "<" ++ String.intercalate "," keys ++ ">") b where
  bare := bare
  links u member := by
    rcases links u member with owner | argument | rfl
    · exact closed.types generic u (by simp [TypeBinding.links, owner])
    · exact hasArguments u argument
    · exact has
  told := by
    have grows := (Grows.refl s).addType bare
    have base := keyWith_of_grows closed grows (Nat.lt_succ_self s.size) has told
    have keeps := keepsKeys closed grows (Nat.le_refl (s.size + 1))
    have more : Refines (arguments.mapM s.typeKey)
        (arguments.mapM fun t => (s.addType b).2.keyWith (s.size + 1) (.type t)) :=
      .mapM fun t member => keeps.types t (hasArguments t member)
    rw [toldArguments] at more
    rw [typeKey_addType, keyWith, type_addType_self]
    simp only [kind, made, given, List.mapM_map, needed]
    show (do
      let texts ← arguments.mapM fun t => (s.addType b).2.keyWith (s.size + 1) (.type t)
      return (← (s.addType b).2.keyWith (s.size + 1) (.type generic)) ++ "<" ++
        String.intercalate "," texts ++ ">") = _
    rw [more.eq_ok, base]
    rfl

/-- The key of an array is that of its element, with brackets. -/
theorem exists_element_of_typeKey {t : TypeId} {key : String}
    (array : (s.type t).isArray = true) (told : s.typeKey t = .ok key) :
    ∃ element text, (s.type t).elementType = some element ∧ s.typeKey element = .ok text ∧
      key = text ++ brackets (s.type t).dimensions := by
  have kind : (s.type t).kind = .array := by simpa [TypeBinding.isArray] using array
  rw [typeKey, Store.key, keyWith] at told
  simp only [kind] at told
  obtain ⟨element, there, told⟩ := bind_eq_ok.1 told
  obtain ⟨text, inner, told⟩ := bind_eq_ok.1 told
  cases told
  have made := needed_eq_ok.1 there
  have hasElement := closed.types t element (by simp [TypeBinding.links, made])
  have more := (keepsKeys closed (Grows.refl s) (Nat.le_succ s.size)).types element hasElement
  rw [inner] at more
  exact ⟨element, text, made, more.eq_ok, rfl⟩

theorem arrayKey_eq {t : TypeId} {key : String} (proper : s.IsProper t)
    (told : s.typeKey t = .ok key) {n : Int} (nonnegative : 0 ≤ n) :
    s.arrayKey (some t) n = .ok (key ++ brackets n) := by
  show (do
    let inner ← needed (s.innermost t)
    return (← s.typeKey inner) ++ brackets
      (n + if (s.type t).isArray then (s.type t).dimensions else 0)) = _
  rw [innermost]
  by_cases nested : (s.type t).isArray
  · obtain ⟨element, text, made, inner, rfl⟩ := exists_element_of_typeKey closed nested told
    have deep := proper nested
    rw [if_pos nested, if_pos nested, made, Int.add_comm, brackets_add (by omega) nonnegative,
      String.append_assoc]
    show (do return (← s.typeKey element) ++ _) = _
    rw [inner]
    rfl
  · rw [if_neg nested, if_neg nested, Int.add_zero]
    show (do return (← s.typeKey t) ++ _) = _
    rw [told]
    rfl

end Store

namespace Environment

open EnvironmentM

variable {e e' : Environment}

/-! ## Courses of a call -/

/-- With a key, the call files a type under it or finds the one that is filed there; without one it
leaves the environment as it is. -/
inductive Course (e : Environment) (call : EnvironmentM (Option TypeId)) :
    Except Fault String → Prop
  | derives {key : String} {b : TypeBinding} : e.store.Keyed key b →
      outcome call e = outcome (some <$> derivedType key b) e → Course e call (.ok key)
  | still {fault : Fault} : (outcome call e).2 = e → Course e call (.error fault)

namespace Course

theorem read_bind {α : Type} {f : Environment → α} {g : α → EnvironmentM (Option TypeId)}
    {key : Except Fault String} (h : e.Course (g (f e)) key) : e.Course (read f >>= g) key := by
  cases h with
  | derives keyed run => exact .derives keyed run
  | still same => exact .still same

/-- The key may need the same values as the call. -/
theorem ofExcept_bind {α : Type} {x : Except Fault α} {g : α → EnvironmentM (Option TypeId)}
    {key : α → Except Fault String} (h : ∀ a, x = .ok a → e.Course (g a) (key a)) :
    e.Course (ofExcept x >>= g) (x >>= key) := by
  cases x with
  | error fault => exact .still rfl
  | ok a => exact h a rfl

end Course

section Calls

variable (closed : e.Closed)

include closed

theorem course_flatArrayOf {element : TypeId} (has : e.store.Has (.type element)) (n : Int) :
    e.Course (some <$> flatArrayOf element n)
      (do return (← e.store.typeKey element) ++ brackets n) := by
  rw [flatArrayOf, map_bind]
  refine .read_bind ?_
  rw [map_bind]
  refine .ofExcept_bind fun key told => .derives ?_ rfl
  refine Store.keyed_array closed.store has told ⟨rfl, rfl, rfl, rfl, fun isUse => ?_, fun _ => rfl⟩
    rfl rfl rfl rfl
  cases isUse

theorem course_arrayOf {element : Option TypeId} (has : ∀ t ∈ element, e.store.Has (.type t))
    {n : Int} (positive : ¬ n ≤ 0) : e.Course (arrayOf element n) (e.store.arrayKey element n) := by
  cases element with
  | none => exact .still rfl
  | some t =>
    rw [arrayOf, if_neg positive]
    refine .read_bind ?_
    show e.Course _ (do
      let inner ← needed (e.store.innermost t)
      return (← e.store.typeKey inner) ++ brackets
        (n + if (e.store.type t).isArray then (e.store.type t).dimensions else 0))
    rw [Store.innermost]
    by_cases nested : (e.store.type t).isArray
    · rw [if_pos nested, if_pos nested, if_pos nested]
      refine .ofExcept_bind fun inner there => ?_
      rw [← map_eq_pure_bind]
      refine course_flatArrayOf closed (closed.store.types t inner ?_) _
      simp [TypeBinding.links, needed_eq_ok.1 there]
    · rw [if_neg nested, if_neg nested, if_neg nested, Int.add_zero, ← map_eq_pure_bind]
      exact course_flatArrayOf closed (has t rfl) n

theorem course_parameterized {generic : Option TypeId} {arguments : List TypeId}
    (has : ∀ t ∈ generic, e.store.Has (.type t))
    (hasArguments : ∀ t ∈ arguments, e.store.Has (.type t)) :
    e.Course (parameterized generic arguments) (e.store.useKey generic arguments) := by
  cases given : arguments.isEmpty with
  | true =>
    rw [parameterized, Store.useKey, given]
    exact .still rfl
  | false =>
    rw [parameterized, Store.useKey, given]
    refine .ofExcept_bind fun base there => .read_bind <| .ofExcept_bind fun keys toldArguments =>
      .ofExcept_bind fun key told => .derives ?_ (congrArg (outcome · e) (map_eq_pure_bind ..).symm)
    refine Store.keyed_use closed.store (has base (needed_eq_ok.1 there)) hasArguments told
      toldArguments ⟨rfl, rfl, rfl, rfl, fun _ => ⟨arguments, ?_, rfl⟩, fun isPlain => ?_⟩ rfl rfl
      rfl fun u member => ?_
    · simpa using given
    · cases isPlain
    · simpa [TypeBinding.links] using member

end Calls

/-! ## Sequences of calls -/

/-- A call that derives a type from others. -/
inductive Derivation where
  | array (element : Option TypeId) (dimensions : Int)
  | use (generic : Option TypeId) (arguments : List TypeId)
  | primitive (name : String)

namespace Derivation

/-- Makes the call. -/
def perform : Derivation → EnvironmentM (Option TypeId)
  | array element dimensions => arrayOf element dimensions
  | use generic arguments => parameterized generic arguments
  | primitive name => some <$> primitiveType name

/-- The types that a call is given. -/
def given : Derivation → List TypeId
  | array element _ => element.toList
  | use generic arguments => generic.toList ++ arguments
  | primitive _ => []

/-- The types that a call is given are there. -/
def IsFor (d : Derivation) (e : Environment) : Prop :=
  ∀ t ∈ d.given, e.store.Has (.type t)

/-- The key under which a call files; none if it answers with a type that it is given. -/
def key (s : Store) : Derivation → Except Fault String
  | array element dimensions =>
    if dimensions ≤ 0 then .error .missing else s.arrayKey element dimensions
  | use generic arguments => s.useKey generic arguments
  | primitive name => .ok name

theorem course_perform (closed : e.Closed) {d : Derivation} (possible : d.IsFor e) :
    e.Course d.perform (d.key e.store) := by
  cases d with
  | array element dimensions =>
    rw [key]
    split
    · next none_added =>
      refine .still ?_
      cases element with
      | none => rfl
      | some t => rw [perform, arrayOf, if_pos none_added, outcome_pure]
    · next positive =>
      exact course_arrayOf closed (fun t member => possible t (Option.mem_toList.2 member)) positive
  | use generic arguments =>
    refine course_parameterized closed (fun t member => possible t ?_) fun t member => possible t ?_
    · exact List.mem_append_left _ (Option.mem_toList.2 member)
    · exact List.mem_append_right _ member
  | primitive name => exact .derives (e.store.keyed_primitive name) rfl

theorem keeps_perform {I : Environment → Prop} [Lasts I] (d : Derivation) : Keeps I d.perform := by
  cases d with
  | array element dimensions => exact keeps_arrayOf element dimensions
  | use generic arguments => exact keeps_parameterized generic arguments
  | primitive name => exact (keeps_primitiveType name).map some

end Derivation

/-- Calls that derive types, one after the other, lead from the first environment to the second one.
A call that fails is over all the same. -/
inductive Derives (e : Environment) : Environment → Prop
  | refl : Derives e e
  | step {e' : Environment} {d : Derivation} : Derives e e' → d.IsFor e' →
      Derives e (outcome d.perform e').2

theorem Derives.grows (derives : e.Derives e') : e.Grows e' := by
  induction derives with
  | refl => exact .refl e
  | step _ _ ih => exact Derivation.keeps_perform _ _ ih

theorem Derives.trans {e'' : Environment} (first : e.Derives e') (second : e'.Derives e'') :
    e.Derives e'' := by
  induction second with
  | refl => exact first
  | step _ possible ih => exact .step ih possible

/-- A deriving call of one operation, by the keys of what it is given. -/
inductive Ask where
  | array (element : String) (dimensions : Int)
  | use (generic : String) (arguments : List String)
  | primitive (name : String)

/-- The key of what is asked for. -/
def Ask.key : Ask → String
  | array element dimensions => element ++ brackets dimensions
  | use generic arguments => generic ++ "<" ++ String.intercalate "," arguments ++ ">"
  | primitive name => name

/-- A call that derives a type, and the keys of what it is given. -/
inductive Derivation.Asks (s : Store) : Derivation → Ask → Prop
  | array {t : TypeId} {key : String} {n : Int} : s.IsProper t → s.typeKey t = .ok key → 1 ≤ n →
      Asks s (.array (some t) n) (.array key n)
  | use {generic : TypeId} {arguments : List TypeId} {key : String} {keys : List String} :
      s.typeKey generic = .ok key → arguments.mapM s.typeKey = .ok keys → arguments ≠ [] →
      Asks s (.use (some generic) arguments) (.use key keys)
  | primitive {name : String} : Asks s (.primitive name) (.primitive name)

theorem Derivation.Asks.key_eq {s : Store} (closed : s.Closed) {d : Derivation} {ask : Ask}
    (asks : d.Asks s ask) : d.key s = .ok ask.key := by
  cases asks with
  | array proper told positive =>
    rw [Derivation.key, if_neg (by omega)]
    exact Store.arrayKey_eq closed proper told (by omega)
  | @use generic arguments key keys told toldArguments given =>
    have some_arguments : arguments.isEmpty = false := by simpa using given
    rw [Derivation.key, Store.useKey, some_arguments]
    show (do
      let keys ← arguments.mapM s.typeKey
      return (← s.typeKey generic) ++ "<" ++ String.intercalate "," keys ++ ">") = _
    rw [toldArguments, told]
    rfl
  | primitive => rfl

/-! ## Consistent tables -/

/-- Nothing dangles, and every derived type is filed under the key that it has. -/
structure Consistent (e : Environment) : Prop where
  closed : e.Closed
  filed : ∀ entry ∈ e.derived, e.store.typeKey entry.2 = .ok entry.1

theorem outcome_derivedType_of_filed {key : String} {t : TypeId} (b : TypeBinding)
    (filed : e.derived.lookup key = some t) :
    outcome (some <$> derivedType key b) e = (.ok (some t), e) := by
  rw [derivedType, map_bind, outcome_bind_of_ok (outcome_get e), filed]
  rfl

theorem outcome_derivedType_of_unfiled {key : String} (b : TypeBinding)
    (unfiled : e.derived.lookup key = none) :
    outcome (some <$> derivedType key b) e = (.ok (some (e.store.addType b).1), { e with
      store := (e.store.addType b).2
      derived := (key, (e.store.addType b).1) :: e.derived }) := by
  rw [derivedType, map_bind, outcome_bind_of_ok (outcome_get e), unfiled]
  rfl

/-- What is filed already is answered again. -/
theorem Course.outcome_of_filed {call : EnvironmentM (Option TypeId)} {key : String} {t : TypeId}
    (course : e.Course call (.ok key)) (filed : e.derived.lookup key = some t) :
    outcome call e = (.ok (some t), e) := by
  cases course with
  | derives _ run => exact run.trans (outcome_derivedType_of_filed _ filed)

namespace Consistent

variable {call : EnvironmentM (Option TypeId)} (consistent : e.Consistent)

include consistent

theorem typeKey_of_filed {key : String} {t : TypeId} (filed : e.derived.lookup key = some t) :
    e.store.typeKey t = .ok key :=
  consistent.filed (key, t) (mem_of_lookup filed)

theorem has_of_filed {key : String} {t : TypeId} (filed : e.derived.lookup key = some t) :
    e.store.Has (.type t) :=
  consistent.closed.derived (key, t) (mem_of_lookup filed)

/-- A call with a key answers, and its answer is filed under the key. -/
theorem exists_filed {key : String} (course : e.Course call (.ok key)) :
    ∃ t e', outcome call e = (.ok (some t), e') ∧ e'.Consistent ∧
      e'.derived.lookup key = some t := by
  cases found : e.derived.lookup key with
  | some t => exact ⟨t, e, course.outcome_of_filed found, consistent, found⟩
  | none =>
    cases course with
    | @derives _ b keyed run =>
      refine ⟨_, _, run.trans (outcome_derivedType_of_unfiled b found), ⟨?closed, ?filed⟩,
        List.lookup_cons_self⟩
      case closed =>
        obtain ⟨added, has⟩ := (ClosedWith.nil consistent.closed).addType keyed.links
        refine { added with derived := fun entry member => ?_ }
        rcases List.mem_cons.1 member with rfl | member
        · exact has _ List.mem_cons_self
        · exact added.derived entry member
      case filed =>
        intro entry member
        rcases List.mem_cons.1 member with rfl | member
        · exact keyed.told
        · exact Store.typeKey_of_grows consistent.closed.store
            ((Store.Grows.refl e.store).addType keyed.bare) (consistent.closed.derived entry member)
            (consistent.filed entry member)

theorem of_course {key : Except Fault String} (course : e.Course call key) :
    (outcome call e).2.Consistent := by
  cases key with
  | error fault =>
    cases course with
    | still same => rwa [same]
  | ok key =>
    obtain ⟨t, e', run, kept, -⟩ := consistent.exists_filed course
    rwa [run]

/-- Whatever is derived, the table stays consistent. -/
theorem of_derives (derives : e.Derives e') : e'.Consistent := by
  induction derives with
  | refl => exact consistent
  | step _ possible ih => exact ih.of_course (Derivation.course_perform ih.closed possible)

/-- Calls that ask for the same thing are answered with the same type. -/
theorem exists_shared {d : Derivation} {ask : Ask} (possible : d.IsFor e)
    (asks : d.Asks e.store ask) :
    ∃ t e₁, outcome d.perform e = (.ok (some t), e₁) ∧
      ∀ (d' : Derivation) (e₂ : Environment), e₁.Derives e₂ → d'.IsFor e₂ → d'.Asks e₂.store ask →
        outcome d'.perform e₂ = (.ok (some t), e₂) := by
  have course := Derivation.course_perform consistent.closed possible
  rw [asks.key_eq consistent.closed.store] at course
  obtain ⟨t, e₁, run, kept, filed⟩ := consistent.exists_filed course
  refine ⟨t, e₁, run, fun d' e₂ derives possible' asks' => ?_⟩
  have closed := (kept.of_derives derives).closed
  have course' := Derivation.course_perform closed possible'
  rw [asks'.key_eq closed.store] at course'
  exact course'.outcome_of_filed (derives.grows.derived _ _ filed)

end Consistent

/-! ## Environments that come about -/

/-- The environment was built for a context, and only types were made on the way since. -/
inductive IsReached : Environment → Prop
  | built {c : Context} {e : Environment} : build c = .ok e → IsReached e
  | wildcard {e : Environment} (text : String) (bounds : List (Option TypeId)) :
      IsReached e → IsReached (outcome (addType (.ofWildcard text bounds)) e).2
  | recovered {e : Environment} (name : String) :
      IsReached e → IsReached (outcome (recoveredType name) e).2
  | derived {e : Environment} (d : Derivation) : IsReached e → IsReached (outcome d.perform e).2

/-- Whatever is asked of an environment that has come about, it is left in one. -/
instance : Lasts IsReached where
  wildcard text bounds _ h := h.wildcard text bounds
  recoveredType name _ h := h.recovered name
  primitiveType name e h := by
    have reached := h.derived (.primitive name)
    rwa [Derivation.perform, outcome_map_snd] at reached
  arrayOf element dimensions _ h := h.derived (.array element dimensions)
  parameterized generic arguments _ h := h.derived (.use generic arguments)

theorem IsReached.of_derives (reached : e.IsReached) (derives : e.Derives e') : e'.IsReached := by
  induction derives with
  | refl => exact reached
  | @step _ d _ _ ih => exact ih.derived d

/-- Every array has at least one dimension. An array without any would have the key of its element and
could be handed out in its place. -/
def HasProperArrays (e : Environment) : Prop :=
  ∀ t, e.store.IsProper t

namespace HasProperArrays

theorem addType (proper : e.HasProperArrays) {b : TypeBinding} (new : b.IsProper) :
    HasProperArrays { e with store := (e.store.addType b).2 } := by
  intro t
  show ((e.store.addType b).2.type t).IsProper
  rcases Store.type_addType_cases e.store b t with ⟨-, same⟩ | ⟨-, same⟩ | ⟨-, same⟩ <;> rw [same]
  · exact proper t
  · exact new
  · rintro ⟨⟩

theorem keeps_derivedType (key : String) {b : TypeBinding} (new : b.IsProper) :
    Keeps HasProperArrays (derivedType key b) := by
  intro e proper
  rw [derivedType, outcome_bind_of_ok (outcome_get e)]
  cases e.derived.lookup key with
  | some t => exact proper
  | none => exact proper.addType new

theorem keeps_flatArrayOf (element : TypeId) {dimensions : Int} (positive : 1 ≤ dimensions) :
    Keeps HasProperArrays (flatArrayOf element dimensions) :=
  (keeps_read store).bind fun _ => (Keeps.ofExcept _).bind fun _ =>
    keeps_derivedType _ fun _ => positive

/-- The dimensions of an array as element are added to the new ones. -/
theorem keeps_arrayOf (element : Option TypeId) (dimensions : Int) :
    Keeps HasProperArrays (arrayOf element dimensions) := by
  intro e proper
  cases element with
  | none => exact proper
  | some element =>
    by_cases none_added : dimensions ≤ 0
    · rw [arrayOf, if_pos none_added]
      exact proper
    have store : outcome (read store) e = (.ok e.store, e) := rfl
    rw [arrayOf, if_neg none_added, outcome_bind_of_ok store]
    by_cases nested : (e.store.type element).isArray
    · have deep := proper element nested
      rw [if_pos nested]
      exact (Keeps.ofExcept _).bind (fun inner => (keeps_flatArrayOf inner (by omega)).bind fun t =>
        .pure (some t)) e proper
    · rw [if_neg nested]
      exact (keeps_flatArrayOf element (by omega)).bind (fun t => .pure (some t)) e proper

instance : Lasts HasProperArrays where
  wildcard _ _ _ proper := proper.addType (by rintro ⟨⟩)
  recoveredType name e proper := by
    rw [recoveredType, outcome_bind_of_ok (outcome_get e)]
    cases e.recovered.lookup name with
    | some t => exact proper
    | none => exact proper.addType (by rintro ⟨⟩)
  primitiveType name := keeps_derivedType name (by rintro ⟨⟩)
  arrayOf := keeps_arrayOf
  parameterized generic arguments := by
    rw [parameterized]
    refine .ite (.pure generic) <| (Keeps.ofExcept _).bind fun _ => (keeps_read store).bind fun _ =>
      (Keeps.ofExcept _).bind fun _ => (Keeps.ofExcept _).bind fun _ => ?_
    exact (keeps_derivedType _ (by rintro ⟨⟩)).bind fun t => .pure (some t)

instance (b : BindingId) : Outlasts b HasProperArrays where
  modifyType {t change} _ same := .modify fun e proper u => by
    show ((e.store.modifyType t change).type u).IsProper
    rcases Store.type_modifyType_cases e.store t change u with old | ⟨-, -, changed⟩
    · rw [old]
      exact proper u
    · rw [changed]
      exact (proper u).of_outline_eq (same _)
  modifyVariable _ _ := .modify fun _ proper => proper
  modifyMethod _ _ := .modify fun _ proper => proper

theorem of_derives (proper : e.HasProperArrays) (derives : e.Derives e') : e'.HasProperArrays := by
  induction derives with
  | refl => exact proper
  | @step _ d _ _ ih => exact d.keeps_perform _ ih

end HasProperArrays

/-- No unit declares an array, and the arrays that are made have dimensions. -/
theorem IsReached.hasProperArrays (reached : e.IsReached) : e.HasProperArrays := by
  induction reached with
  | built built =>
    obtain ⟨d, declares, completes⟩ := build_eq_ok built
    have start : d.toEnvironment.HasProperArrays := by
      intro t isArray
      rw [((declared_sound declares).plain t).array] at isArray
      cases isArray
    exact (Keeps.forM fun entry _ => keeps_complete entry.1 entry.2).ensures _ start () _ completes
  | wildcard text bounds _ ih => exact Lasts.wildcard text bounds _ ih
  | recovered name _ ih => exact keeps_recoveredType name _ ih
  | derived d _ ih => exact d.keeps_perform _ ih

/-! ## Arrays of arrays -/

/-- The second type is the first one, whose key this is, with more dimensions: without any it is the
first one itself. -/
def FilesArray (e : Environment) (t : TypeId) (key : String) (n : Nat) (u : TypeId) : Prop :=
  if n = 0 then u = t else e.derived.lookup (key ++ brackets n) = some u

namespace FilesArray

variable {t u v : TypeId} {key : String} {m n : Nat}

theorem grows (filed : e.FilesArray t key n u) (grows : e.Grows e') : e'.FilesArray t key n u := by
  by_cases none_added : n = 0
  · rw [FilesArray, if_pos none_added] at filed ⊢
    exact filed
  · rw [FilesArray, if_neg none_added] at filed ⊢
    exact grows.derived _ _ filed

theorem unique (filed : e.FilesArray t key n u) (filed' : e.FilesArray t key n v) : u = v := by
  by_cases none_added : n = 0
  · rw [FilesArray, if_pos none_added] at filed filed'
    exact filed.trans filed'.symm
  · rw [FilesArray, if_neg none_added] at filed filed'
    exact Option.some_inj.1 (filed.symm.trans filed')

/-- Dimensions that are added one after the other are added at once. -/
theorem add_iff (filed : e.FilesArray t key m u) :
    e.FilesArray u (key ++ brackets m) n v ↔ e.FilesArray t key (m + n) v := by
  by_cases none_added : n = 0
  · subst none_added
    constructor
    · intro same
      cases same
      exact filed
    · exact fun same => same.unique filed
  · have some_added : m + n ≠ 0 := by omega
    rw [FilesArray, FilesArray, if_neg none_added, if_neg some_added, Int.natCast_add,
      brackets_add (by omega) (by omega), String.append_assoc]

theorem outcome_arrayOf (closed : e.Closed) (has : e.store.Has (.type t))
    (proper : e.store.IsProper t) (told : e.store.typeKey t = .ok key)
    (filed : e.FilesArray t key n u) : outcome (arrayOf (some t) n) e = (.ok (some u), e) := by
  by_cases none_added : n = 0
  · subst none_added
    cases filed
    rfl
  · rw [FilesArray, if_neg none_added] at filed
    have course : e.Course (arrayOf (some t) n) (e.store.arrayKey (some t) n) :=
      course_arrayOf closed (by rintro _ ⟨⟩; exact has) (by omega)
    rw [Store.arrayKey_eq closed.store proper told (by omega)] at course
    exact course.outcome_of_filed filed

end FilesArray

theorem isProper_of_grows {t : TypeId} (grows : e.Grows e') (has : e.store.Has (.type t))
    (proper : e.store.IsProper t) : e'.store.IsProper t := by
  rw [Store.IsProper, grows.store.kept t has]
  exact proper

namespace Consistent

variable {t : TypeId} {key : String} (consistent : e.Consistent)

include consistent

theorem exists_array (has : e.store.Has (.type t)) (proper : e.store.IsProper t)
    (told : e.store.typeKey t = .ok key) (n : Nat) :
    ∃ u e₁, outcome (arrayOf (some t) n) e = (.ok (some u), e₁) ∧ e.Derives e₁ ∧
      e₁.FilesArray t key n u ∧ e₁.store.Has (.type u) ∧
      e₁.store.typeKey u = .ok (key ++ brackets n) := by
  by_cases none_added : n = 0
  · subst none_added
    refine ⟨t, e, rfl, .refl, rfl, has, ?_⟩
    rw [told]
    simp
  · have possible : (Derivation.array (some t) n).IsFor e := by
      intro _ member
      cases List.mem_singleton.1 member
      exact has
    have course : e.Course (arrayOf (some t) n) (e.store.arrayKey (some t) n) :=
      course_arrayOf consistent.closed (by rintro _ ⟨⟩; exact has) (by omega)
    rw [Store.arrayKey_eq consistent.closed.store proper told (by omega)] at course
    obtain ⟨u, e₁, run, kept, filed⟩ := consistent.exists_filed course
    have derives : e.Derives (outcome (arrayOf (some t) n) e).2 := .step .refl possible
    rw [run] at derives
    exact ⟨u, e₁, run, derives, (if_neg none_added).mpr filed, kept.has_of_filed filed,
      kept.typeKey_of_filed filed⟩

/-- Dimensions are added at once or one after the other, in either order: the array is the same. -/
theorem exists_nested (arrays : e.HasProperArrays) (has : e.store.Has (.type t))
    (proper : e.store.IsProper t) (told : e.store.typeKey t = .ok key) (m n : Nat) :
    (∃ u v e₁ e₂, outcome (arrayOf (some t) m) e = (.ok (some u), e₁) ∧
      outcome (arrayOf (some u) n) e₁ = (.ok (some v), e₂) ∧
      outcome (arrayOf (some t) ↑(m + n)) e₂ = (.ok (some v), e₂)) ∧
    ∃ u v e₁ e₂, outcome (arrayOf (some t) ↑(m + n)) e = (.ok (some v), e₁) ∧
      outcome (arrayOf (some t) m) e₁ = (.ok (some u), e₂) ∧
      outcome (arrayOf (some u) n) e₂ = (.ok (some v), e₂) := by
  -- the first type is what it was, however far the environment has grown
  have lasts : ∀ {e' : Environment}, e.Derives e' → e'.Consistent ∧ e'.store.Has (.type t) ∧
      e'.store.IsProper t ∧ e'.store.typeKey t = .ok key := fun derives =>
    ⟨consistent.of_derives derives, derives.grows.store.has has,
      isProper_of_grows derives.grows has proper,
      Store.typeKey_of_grows consistent.closed.store derives.grows.store has told⟩
  constructor
  · obtain ⟨u, e₁, first, derives, filed, hasInner, toldInner⟩ :=
      consistent.exists_array has proper told m
    have consistent₁ := consistent.of_derives derives
    obtain ⟨v, e₂, second, derives', filed', -, -⟩ :=
      consistent₁.exists_array hasInner (arrays.of_derives derives u) toldInner n
    obtain ⟨consistent₂, has₂, proper₂, told₂⟩ := lasts (derives.trans derives')
    refine ⟨u, v, e₁, e₂, first, second, ?_⟩
    exact ((filed.grows derives'.grows).add_iff.1 filed').outcome_arrayOf consistent₂.closed has₂
      proper₂ told₂
  · obtain ⟨v, e₁, first, derives, filed, -, -⟩ :=
      consistent.exists_array has proper told (m + n)
    obtain ⟨consistent₁, has₁, proper₁, told₁⟩ := lasts derives
    obtain ⟨u, e₂, second, derives', filed', hasInner, toldInner⟩ :=
      consistent₁.exists_array has₁ proper₁ told₁ m
    refine ⟨u, v, e₁, e₂, first, second, ?_⟩
    have properInner := arrays.of_derives (derives.trans derives') u
    exact (filed'.add_iff.2 (filed.grows derives'.grows)).outcome_arrayOf
      (consistent₁.of_derives derives').closed hasInner properInner toldInner

/-- A consistent table stays consistent, and no key moves, whatever is derived. Its arrays have the
keys of their elements followed by brackets. Where every array has at least one dimension, as in all
environments that come about, dimensions are added at once or one after the other. Calls that ask for
the same thing are answered with the same type, whatever is derived in between. -/
theorem shares_derived_types :
    (e.IsReached → e.HasProperArrays) ∧
    (∀ e', e.Derives e' → e'.Consistent ∧ (e.HasProperArrays → e'.HasProperArrays) ∧
      (e.IsReached → e'.IsReached) ∧
      ∀ t key, e.store.Has (.type t) → e.store.typeKey t = .ok key →
        e'.store.typeKey t = .ok key) ∧
    (∀ t key, e.store.Has (.type t) → e.store.IsProper t → e.store.typeKey t = .ok key →
      ∀ m n : Nat,
        (∃ u e₁, outcome (arrayOf (some t) n) e = (.ok (some u), e₁) ∧
          e₁.store.typeKey u = .ok (key ++ brackets n)) ∧
        (e.HasProperArrays →
          (∃ u v e₁ e₂, outcome (arrayOf (some t) m) e = (.ok (some u), e₁) ∧
            outcome (arrayOf (some u) n) e₁ = (.ok (some v), e₂) ∧
            outcome (arrayOf (some t) ↑(m + n)) e₂ = (.ok (some v), e₂)) ∧
          ∃ u v e₁ e₂, outcome (arrayOf (some t) ↑(m + n)) e = (.ok (some v), e₁) ∧
            outcome (arrayOf (some t) m) e₁ = (.ok (some u), e₂) ∧
            outcome (arrayOf (some u) n) e₂ = (.ok (some v), e₂))) ∧
    ∀ (d : Derivation) (ask : Ask), d.IsFor e → d.Asks e.store ask →
      ∃ t e₁, outcome d.perform e = (.ok (some t), e₁) ∧
        ∀ (d' : Derivation) (e₂ : Environment), e₁.Derives e₂ → d'.IsFor e₂ →
          d'.Asks e₂.store ask → outcome d'.perform e₂ = (.ok (some t), e₂) := by
  refine ⟨IsReached.hasProperArrays, fun e' derives => ⟨consistent.of_derives derives,
      fun arrays => arrays.of_derives derives, fun reached => reached.of_derives derives,
      fun t key has told => ?_⟩,
    fun t key has proper told m n =>
      ⟨?_, fun arrays => consistent.exists_nested arrays has proper told m n⟩,
    fun d ask possible asks => consistent.exists_shared possible asks⟩
  · exact Store.typeKey_of_grows consistent.closed.store derives.grows.store has told
  · obtain ⟨u, e₁, run, -, -, -, toldArray⟩ := consistent.exists_array has proper told n
    exact ⟨u, e₁, run, toldArray⟩

end Consistent

set_option maxRecDepth 100000 in
theorem overloads_consistent :
    (match build overloads with
    | .ok e => decide ((∀ entry ∈ e.derived, e.store.typeKey entry.2 = .ok entry.1) ∧
        e.derived.lookup "LB;<LA;.m():TT>" = some ⟨5⟩)
    | .error _ => false) = true := by
  decide +kernel

/-- The types that are derived while the overloads are completed are shared afterwards: the use of the
generic type takes three dimensions at once or one after two, and a primitive type stays the same. -/
theorem shares_derived_types_overloads :
    ∃ e, build overloads = .ok e ∧ e.Consistent ∧ e.derived.lookup "LB;<LA;.m():TT>" = some ⟨5⟩ ∧
      (∃ u v e₁ e₂, outcome (arrayOf (some ⟨5⟩) 2) e = (.ok (some u), e₁) ∧
        outcome (arrayOf (some u) 1) e₁ = (.ok (some v), e₂) ∧
        outcome (arrayOf (some ⟨5⟩) 3) e₂ = (.ok (some v), e₂)) ∧
      ∃ t e₁, outcome (some <$> primitiveType "long") e = (.ok (some t), e₁) ∧
        ∀ e₂, e₁.Derives e₂ → outcome (some <$> primitiveType "long") e₂ = (.ok (some t), e₂) := by
  have computed := overloads_consistent
  split at computed
  · next e built =>
    obtain ⟨filed, found⟩ := of_decide_eq_true computed
    have consistent : e.Consistent := ⟨(build_ready built).sound.closed, filed⟩
    obtain ⟨proper, -, arrays, shared⟩ := consistent.shares_derived_types
    obtain ⟨t, e₁, run, again⟩ := shared (.primitive "long") (.primitive "long") nofun .primitive
    refine ⟨e, built, consistent, found, ?_, t, e₁, run, fun e₂ derives =>
      again (.primitive "long") e₂ derives nofun .primitive⟩
    have hasProper : e.HasProperArrays := proper (.built built)
    exact ((arrays ⟨5⟩ _ (consistent.has_of_filed found) (hasProper ⟨5⟩)
      (consistent.typeKey_of_filed found) 2 1).2 hasProper).1
  · cases computed

end Environment

end JavaScope
