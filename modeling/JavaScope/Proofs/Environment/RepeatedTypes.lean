import JavaScope.Proofs.Binding.Signature
import JavaScope.Proofs.Environment.Agreement
import JavaScope.Proofs.Environment.Composition
import JavaScope.Proofs.Environment.Keys
import JavaScope.Proofs.Environment.Repeats
import Mathlib.Data.List.Find

/-!
# Types that are made again

Once a type in the text has been resolved, it is resolved to the same type, and a wildcard to another
wildcard of the same text. All that is derived from such types is filed under the same keys, and so
is found again.
-/

namespace JavaScope

/-! ## Wildcards -/

/-- The binding is that of a wildcard of this text. -/
def TypeBinding.IsWildcard (b : TypeBinding) (text : String) : Prop :=
  ∃ bounds, b = .ofWildcard text bounds

theorem TypeBinding.IsWildcard.not_isArray {b : TypeBinding} {text : String} (h : b.IsWildcard text) :
    ¬ b.isArray = true := by
  obtain ⟨bounds, rfl⟩ := h
  exact nofun

namespace Store

variable {s s' : Store} {t : TypeId} {text : String}

theorem has_of_isWildcard (wildcard : (s.type t).IsWildcard text) : s.Has (.type t) := by
  by_contra missing
  obtain ⟨bounds, binding⟩ := wildcard
  rw [type_of_size_le (Nat.le_of_not_lt missing)] at binding
  cases congrArg TypeBinding.kind binding

theorem Grows.isWildcard (grows : s.Grows s') (wildcard : (s.type t).IsWildcard text) :
    (s'.type t).IsWildcard text := by
  rw [grows.kept t (has_of_isWildcard wildcard)]
  exact wildcard

/-- The key of a wildcard is its text. -/
theorem typeKey_of_isWildcard (wildcard : (s.type t).IsWildcard text) : s.typeKey t = .ok text := by
  obtain ⟨bounds, binding⟩ := wildcard
  rw [typeKey, key, keyWith, binding]
  rfl

end Store

namespace Environment

variable {e e₁ e₂ e₃ : Environment} {t t' : TypeId} {o o' : Option TypeId}

/-- A type of the first environment stands for the same as one of the second: it is the same type, or
both are wildcards of one text. -/
inductive Alike (e e₂ : Environment) : TypeId → TypeId → Prop
  | same {t : TypeId} : e.store.Has (.type t) → Alike e e₂ t t
  | wildcard {t t' : TypeId} {text : String} : (e.store.type t).IsWildcard text →
      (e₂.store.type t').IsWildcard text → Alike e e₂ t t'

/-- The answer is the same type in both environments. -/
def SameType (t t' : TypeId) (e _e₂ : Environment) : Prop :=
  t' = t ∧ e.store.Has (.type t)

/-- The answers are types that stand for the same, or none in both environments. -/
def AlikeTypes (o o' : Option TypeId) (e e₂ : Environment) : Prop :=
  Option.Rel (Alike e e₂) o o'

theorem Alike.grown (alike : Alike e e₂ t t') (first : e.Grows e₁) (second : e₂.Grows e₃) :
    Alike e₁ e₃ t t' := by
  cases alike with
  | same has => exact .same (first.store.has has)
  | wildcard one other =>
    exact .wildcard (first.store.isWildcard one) (second.store.isWildcard other)

theorem Alike.has (alike : Alike e e₂ t t') : e.store.Has (.type t) := by
  cases alike with
  | same has => exact has
  | wildcard one _ => exact Store.has_of_isWildcard one

theorem has_of_alike {ts ts' : List TypeId} (alike : List.Forall₂ (Alike e e₂) ts ts') :
    ∀ u ∈ ts, e.store.Has (.type u) := by
  induction alike with
  | nil => exact nofun
  | cons first _ ih =>
    intro u member
    rcases List.mem_cons.1 member with rfl | member
    · exact first.has
    · exact ih u member

theorem AlikeTypes.grown (alike : AlikeTypes o o' e e₂) (first : e.Grows e₁)
    (second : e₂.Grows e₃) : AlikeTypes o o' e₁ e₃ := by
  cases alike with
  | some alike => exact .some (alike.grown first second)
  | none => exact .none

theorem SameType.alikeTypes (same : SameType t t' e e₂) : AlikeTypes (some t) (some t') e e₂ := by
  obtain ⟨rfl, has⟩ := same
  exact .some (.same has)

theorem alikeTypes_self (has : ∀ t ∈ o, e.store.Has (.type t)) : AlikeTypes o o e e₂ := by
  cases o with
  | none => exact .none
  | some t => exact .some (.same (has t rfl))

/-! ## What a grown environment tells -/

namespace Agrees

variable (agrees : e.Agrees e₂)

include agrees

theorem apart : e.store.Apart e.store e₂.store :=
  ⟨agrees.closed.store, .refl _, agrees.grown.store⟩

theorem type_eq (has : e.store.Has (.type t)) : e₂.store.type t = e.store.type t :=
  agrees.grown.store.kept t has

theorem typeKey (alike : Alike e e₂ t t') {key : String} (told : e.store.typeKey t = .ok key) :
    e₂.store.typeKey t' = .ok key := by
  cases alike with
  | same has => exact Store.typeKey_of_grows agrees.closed.store agrees.grown.store has told
  | wildcard one other =>
    rw [Store.typeKey_of_isWildcard one] at told
    rw [Store.typeKey_of_isWildcard other, told]

theorem typeKeys {ts ts' : List TypeId} (alike : List.Forall₂ (Alike e e₂) ts ts')
    {keys : List String} (told : ts.mapM e.store.typeKey = .ok keys) :
    ts'.mapM e₂.store.typeKey = .ok keys := by
  induction alike generalizing keys with
  | nil => exact told
  | cons first _ ih =>
    rw [List.mapM_cons] at told ⊢
    obtain ⟨key, one, told⟩ := bind_eq_ok.1 told
    obtain ⟨rest, others, told⟩ := bind_eq_ok.1 told
    rw [agrees.typeKey first one, ih others]
    exact told

theorem typeNamed_eq (name : String) {types : List TypeId}
    (has : ∀ t ∈ types, e.store.Has (.type t)) : e₂.typeNamed name types = e.typeNamed name types := by
  rw [typeNamed, typeNamed]
  refine List.find?_congr fun t member => ?_
  rw [agrees.type_eq (has t member)]

theorem typeParametersOf_eq {b : BindingId} (has : e.store.Has b) :
    e₂.typeParametersOf b = e.typeParametersOf b := by
  cases b with
  | type t => simp only [typeParametersOf, agrees.type_eq has]
  | method m => simp only [typeParametersOf, agrees.grown.store.method_eq]
  | «variable» v => rfl

theorem typeOfferedBy_eq (name : String) (has : e.store.Has (.type t)) :
    e₂.typeOfferedBy name t = e.typeOfferedBy name t := by
  have members := agrees.typeNamed_eq name fun u =>
    has_of_mem_declaredTypes (t := u) (u := t) agrees.closed
  simp only [typeOfferedBy, agrees.type_eq has, members]

theorem typeInScopeOf_eq (n : Node) (name : String) :
    e₂.typeInScopeOf n name = e.typeInScopeOf n name := by
  have declared : ((e.declaredAt n).bind fun b => (e₂.typeNamed name (e₂.typeParametersOf b)).or
        (b.typeId?.bind (e₂.typeOfferedBy name))) =
      (e.declaredAt n).bind fun b => (e.typeNamed name (e.typeParametersOf b)).or
        (b.typeId?.bind (e.typeOfferedBy name)) := by
    refine Option.bind_congr fun b filed => ?_
    have has := agrees.closed.declared b (List.mem_map_of_mem (mem_of_lookup filed))
    have parameters : ∀ t ∈ e.typeParametersOf b, e.store.Has (.type t) := by
      intro t member
      cases b with
      | type u => exact agrees.closed.store.types u t (by simp_all [TypeBinding.links, typeParametersOf])
      | method m => exact agrees.closed.store.methods m t (by simp_all [MethodBinding.links, typeParametersOf])
      | «variable» v => cases member
    rw [agrees.typeParametersOf_eq has, agrees.typeNamed_eq name parameters]
    cases b with
    | type u => simp only [BindingId.typeId?, Option.bind_some, agrees.typeOfferedBy_eq name has]
    | method m => rfl
    | «variable» v => rfl
  rw [typeInScopeOf, typeInScopeOf, agrees.grown.declaredAt, agrees.grown.typeAt,
    agrees.grown.document]
  exact congrArg (Option.or · _) declared

theorem findType_eq (name : String) : e₂.findType name = e.findType name := by
  rw [findType, findType, agrees.grown.bindings, ← List.head?_filterMap, ← List.head?_filterMap]
  refine congrArg List.head? (List.filterMap_congr fun b member => ?_)
  have has := agrees.closed.declared b member
  cases b with
  | type u => simp only [BindingId.typeId?, Option.bind_eq_bind, Option.bind_some, agrees.type_eq has]
  | method m => rfl
  | «variable» v => rfl

theorem memberAlong_eq (path : List String) (has : e.store.Has (.type t)) :
    e₂.memberAlong t path = e.memberAlong t path := by
  induction path generalizing t with
  | nil => rfl
  | cons name path ih =>
    have members := agrees.typeNamed_eq name fun u =>
      has_of_mem_declaredTypes (t := u) (u := t) agrees.closed
    rw [memberAlong, memberAlong, agrees.type_eq has, members]
    exact Option.bind_congr fun u found =>
      ih (has_of_mem_declaredTypes agrees.closed (mem_of_typeNamed found))

end Agrees

/-! ## Types made on first use -/

theorem repeats_recoveredType (name : String) :
    Repeats e e₂ (recoveredType name) (recoveredType name) SameType := by
  obtain ⟨t, e', run, filed⟩ : ∃ t e', outcome (recoveredType name) e = (.ok t, e') ∧
      e'.recovered.lookup name = some t := by
    rw [recoveredType, outcome_bind_of_ok (outcome_get e)]
    cases found : e.recovered.lookup name with
    | some t => exact ⟨t, e, rfl, found⟩
    | none => exact ⟨_, _, rfl, List.lookup_cons_self⟩
  refine .of_answer run fun closed grown => ?_
  obtain ⟨closed', has⟩ := ensures_recoveredType name e (.nil closed) t e' run
  refine ⟨closed', t, e₂, ?_, .refl e₂, rfl, has t List.mem_cons_self⟩
  show outcome (recoveredType name) e₂ = _
  rw [recoveredType, outcome_bind_of_ok (outcome_get _), grown.recovered name t filed]
  rfl

/-- What is filed under a key is found again under it, whatever would be made now. -/
theorem repeats_derivedType (key : String) {b b' : TypeBinding}
    (links : ∀ u ∈ b.links, e.store.Has (.type u)) :
    Repeats e e₂ (derivedType key b) (derivedType key b') SameType := by
  obtain ⟨t, e', run, filed⟩ : ∃ t e', outcome (derivedType key b) e = (.ok t, e') ∧
      e'.derived.lookup key = some t := by
    rw [derivedType, outcome_bind_of_ok (outcome_get e)]
    cases found : e.derived.lookup key with
    | some t => exact ⟨t, e, rfl, found⟩
    | none => exact ⟨_, _, rfl, List.lookup_cons_self⟩
  refine .of_answer run fun closed grown => ?_
  have start : ∀ e₁, e₁ = e → e₁.ClosedWith [] ∧ ∀ u ∈ b.links, e₁.store.Has (.type u) := by
    rintro _ rfl
    exact ⟨.nil closed, links⟩
  obtain ⟨closed', has⟩ := ensures_derivedType key start e rfl t e' run
  refine ⟨closed', t, e₂, ?_, .refl e₂, rfl, has t List.mem_cons_self⟩
  show outcome (derivedType key b') e₂ = _
  rw [derivedType, outcome_bind_of_ok (outcome_get _), grown.derived key t filed]
  rfl

theorem repeats_primitiveType (name : String) :
    Repeats e e₂ (primitiveType name) (primitiveType name) SameType :=
  repeats_derivedType name nofun

instance growing_recoveredType (name : String) : Growing (recoveredType name) :=
  .of_keeps fun _ => keeps_recoveredType name

instance growing_primitiveType (name : String) : Growing (primitiveType name) :=
  .of_keeps fun _ => keeps_primitiveType name

instance growing_flatArrayOf (element : TypeId) (dimensions : Int) :
    Growing (flatArrayOf element dimensions) :=
  .of_keeps fun _ => keeps_flatArrayOf element dimensions

instance growing_arrayOf (element : Option TypeId) (dimensions : Int) :
    Growing (arrayOf element dimensions) :=
  .of_keeps fun _ => keeps_arrayOf element dimensions

instance growing_parameterized (generic : Option TypeId) (arguments : List TypeId) :
    Growing (parameterized generic arguments) :=
  .of_keeps fun _ => keeps_parameterized generic arguments

instance growing_resolveType? (n : Option Node) (place : Node) : Growing (resolveType? n place) :=
  .of_keeps fun _ => keeps_resolveType? n place

instance growing_resolveTypeNameIn (scopes : List Node) (name : String) :
    Growing (resolveTypeNameIn scopes name) :=
  .of_keeps fun _ => keeps_resolveTypeNameIn scopes name

instance growing_resolveQualifiedTypeIn (scopes : List Node) (dotted : String) :
    Growing (resolveQualifiedTypeIn scopes dotted) :=
  .of_keeps fun _ => keeps_resolveQualifiedTypeIn scopes dotted

theorem repeats_flatArrayOf (alike : Alike e e₂ t t') (dimensions : Int) :
    Repeats e e₂ (flatArrayOf t dimensions) (flatArrayOf t' dimensions) SameType := by
  refine .of_agrees fun agrees => .read_bind <| .ofExcept_bind fun key told =>
    ⟨key, agrees.typeKey alike told, repeats_derivedType _ fun u link => ?_⟩
  have heq : u = t := by simpa [TypeBinding.links] using link
  rw [heq]
  exact alike.has

theorem repeats_some {a a' : EnvironmentM TypeId} (_ : Growing a) (h : Repeats e e₂ a a' SameType) :
    Repeats e e₂ (do return some (← a)) (do return some (← a')) AlikeTypes :=
  h.bind (fun _ => inferInstance) fun _ _ _ _ _ _ _ same => .pure fun _ => same.alikeTypes

theorem repeats_arrayOf (alike : AlikeTypes o o' e e₂) (dimensions : Int) :
    Repeats e e₂ (arrayOf o dimensions) (arrayOf o' dimensions) AlikeTypes := by
  cases alike with
  | none => exact .pure fun _ => .none
  | @some t t' alike =>
    refine .ite (fun _ => .pure fun _ => .some alike) fun _ => .of_agrees fun agrees => .read_bind ?_
    cases alike with
    | same has =>
      rw [agrees.type_eq has]
      refine .ite (fun _ => ?_) fun _ => repeats_some inferInstance (repeats_flatArrayOf (.same has) _)
      refine .ofExcept_bind fun inner made => ⟨inner, made, ?_⟩
      refine repeats_some inferInstance (repeats_flatArrayOf (.same ?_) _)
      exact agrees.closed.store.types t inner (by simp [TypeBinding.links, needed_eq_ok.1 made])
    | wildcard one other =>
      rw [if_neg one.not_isArray, if_neg other.not_isArray]
      exact repeats_some inferInstance (repeats_flatArrayOf (.wildcard one other) _)

theorem repeats_parameterized (alike : AlikeTypes o o' e e₂) {ts ts' : List TypeId}
    (arguments : List.Forall₂ (Alike e e₂) ts ts') :
    Repeats e e₂ (parameterized o ts) (parameterized o' ts') AlikeTypes := by
  have empty : ts'.isEmpty = ts.isEmpty := by cases arguments <;> rfl
  refine .of_agrees fun agrees => ?_
  rw [parameterized, parameterized, empty]
  refine .ite (fun _ => .pure fun _ => alike) fun given => .ofExcept_bind fun t there => ?_
  cases needed_eq_ok.1 there
  cases alike with
  | @some _ t' alike =>
    refine ⟨t', rfl, .read_bind <| .ofExcept_bind fun keys told =>
      ⟨keys, agrees.typeKeys arguments told, .ofExcept_bind fun key told =>
        ⟨key, agrees.typeKey alike told, repeats_some (.of_keeps fun _ => ?_)
          (repeats_derivedType _ fun u link => ?_)⟩⟩⟩
    · refine keeps_derivedType _ ⟨rfl, rfl, rfl, rfl, fun _ => ⟨ts, ?_, rfl⟩, ?_⟩ ⟨rfl, rfl, rfl⟩
      · simpa using given
      · rintro ⟨⟩
    · have parts : (e.store.type t).declaringClass = some u ∨ u ∈ ts ∨ u = t := by
        simpa [TypeBinding.links] using link
      rcases parts with owner | argument | rfl
      · exact agrees.closed.store.types t u (by simp [TypeBinding.links, owner])
      · exact has_of_alike arguments u argument
      · exact alike.has

/-! ## Names of types -/

theorem repeats_resolveTypeNameIn (scopes : List Node) (name : String) :
    Repeats e e₂ (resolveTypeNameIn scopes name) (resolveTypeNameIn scopes name) SameType := by
  refine .of_agrees fun (agrees : e.Agrees e₂) => .get_bind ?_
  have inScopes : scopes.findSome? (e₂.typeInScopeOf · name) =
      scopes.findSome? (e.typeInScopeOf · name) := by simp only [agrees.typeInScopeOf_eq]
  have top : e₂.typeNamed name e₂.types = e.typeNamed name e.types := by
    rw [agrees.grown.types]
    exact agrees.typeNamed_eq name agrees.closed.types
  simp only [exchange_self, inScopes, top, agrees.grown.imports, agrees.findType_eq]
  split
  · next t found =>
    refine .pure fun _ => ⟨rfl, ?_⟩
    rcases Option.or_eq_some_iff.1 found with found | ⟨-, found⟩
    · obtain ⟨n, -, found⟩ := List.exists_of_findSome?_eq_some found
      exact has_typeInScopeOf agrees.closed found
    · exact agrees.closed.types t (mem_of_typeNamed found)
  · split
    · split
      · next t found => exact .pure fun _ => ⟨rfl, has_findType agrees.closed found⟩
      · exact repeats_recoveredType _
    · exact .ite (fun _ => repeats_recoveredType _) fun _ => repeats_recoveredType _

theorem repeats_resolveQualifiedTypeIn (scopes : List Node) (dotted : String) :
    Repeats e e₂ (resolveQualifiedTypeIn scopes dotted) (resolveQualifiedTypeIn scopes dotted)
      SameType := by
  refine .of_agrees fun (agrees : e.Agrees e₂) => .get_bind ?_
  simp only [exchange_self, agrees.findType_eq]
  split
  · next t found => exact .pure fun _ => ⟨rfl, has_findType agrees.closed found⟩
  · refine (repeats_resolveTypeNameIn scopes _).bind ?_ ?_
    · refine fun first => .of_keeps fun _ => Keeps.get.bind fun e => ?_
      refine .ite (keeps_recoveredType dotted) ?_
      split
      · exact .pure _
      · exact keeps_recoveredType dotted
    · rintro first _ e₁ e₃ - - (agrees : e₁.Agrees e₃) ⟨rfl, has⟩
      refine .get_bind ?_
      simp only [exchange_self, agrees.type_eq has, agrees.memberAlong_eq _ has]
      refine .ite (fun _ => repeats_recoveredType dotted) fun _ => ?_
      split
      · next t found => exact .pure fun _ => ⟨rfl, has_memberAlong agrees.closed has found⟩
      · exact repeats_recoveredType dotted

/-! ## Types in the text -/

/-- A resolution of a type lets the environment grow, and made again it answers a type that stands for
the same. -/
structure IsRepeatable (a : EnvironmentM (Option TypeId)) : Prop where
  growing : Growing a
  repeats : ∀ e e₂, Repeats e e₂ a a AlikeTypes

namespace IsRepeatable

protected theorem none : IsRepeatable (pure none) where
  growing := inferInstance
  repeats _ _ := .pure fun _ => .none

end IsRepeatable

/-- The types of both answers stand for the same, one by one. -/
def AlikeLists (ts ts' : List TypeId) (e e₂ : Environment) : Prop :=
  List.Forall₂ (Alike e e₂) ts ts'

/-- A wildcard is made anew each time. -/
theorem repeats_addWildcard (text : String) {bounds : List TypeId} (bounds' : List TypeId)
    (has : ∀ t ∈ bounds, e.store.Has (.type t)) :
    Repeats e e₂ (EnvironmentM.addType (.ofWildcard text (bounds.map some)))
      (EnvironmentM.addType (.ofWildcard text (bounds'.map some)))
      fun t t' e e₂ => Alike e e₂ t t' := by
  have made : ∀ (e : Environment) (ts : List (Option TypeId)),
      ((e.store.addType (.ofWildcard text ts)).2.type (e.store.addType (.ofWildcard text ts)).1).IsWildcard
        text := fun e ts => ⟨ts, Store.type_addType_self e.store _⟩
  refine .of_answer rfl fun closed grown => ⟨?_, _, _, rfl, ?_, .wildcard (made e _) (made e₂ _)⟩
  · refine ((ClosedWith.nil closed).addType fun u link => ?_).1
    have bound : u ∈ bounds := by simpa [TypeBinding.links, TypeBinding.ofWildcard] using link
    exact has u bound
  · exact Lasts.wildcard text _ e₂ (.refl e₂)

instance growing_addWildcard (text : String) (bounds : List (Option TypeId)) :
    Growing (EnvironmentM.addType (.ofWildcard text bounds)) :=
  .of_keeps fun _ => Lasts.wildcard text bounds

section Readings

variable {place : Node} {readings : List (Node → EnvironmentM (Option TypeId))}
  (h : ∀ reading ∈ readings, IsRepeatable (reading place))

include h

theorem growing_mapM_readings : Growing (readings.mapM fun reading => reading place) :=
  .of_keeps fun e => .mapM fun reading member =>
    have := (h reading member).growing
    Growing.keeps (reading place) e

theorem growing_readAll : Growing (readAll place readings) :=
  .of_keeps fun e => keeps_readAll place fun reading member =>
    have := (h reading member).growing
    Growing.keeps (reading place) e

theorem repeats_mapM_readings : Repeats e e₂ (readings.mapM fun reading => reading place)
    (readings.mapM fun reading => reading place)
    fun os os' e e₂ => List.Forall₂ (fun o o' => AlikeTypes o o' e e₂) os os' := by
  induction readings generalizing e e₂ with
  | nil => exact .pure fun _ => .nil
  | cons reading readings ih =>
    have rest := fun each member => h each (List.mem_cons_of_mem reading member)
    have := growing_mapM_readings rest
    have := (h reading List.mem_cons_self).growing
    rw [List.mapM_cons]
    refine ((h reading List.mem_cons_self).repeats e e₂).bind (fun _ => inferInstance) ?_
    intro o o' e₁ e₃ _ _ _ first
    refine (ih rest).bind (fun _ => inferInstance) fun os os' e₄ e₅ grown grown' _ others => ?_
    exact .pure fun _ => .cons (first.grown grown grown') others

theorem repeats_readAll :
    Repeats e e₂ (readAll place readings) (readAll place readings) AlikeLists := by
  have := growing_mapM_readings h
  refine (repeats_mapM_readings h).bind (fun _ => inferInstance) fun os os' _ _ _ _ _ alike => ?_
  refine .pure fun _ => ?_
  induction alike with
  | nil => exact .nil
  | cons first _ ih =>
    cases first with
    | none => exact ih
    | some first => exact .cons first ih

theorem repeats_wildcard (text : String) :
    let wildcard : EnvironmentM (Option TypeId) := do
      let bounds ← readAll place readings
      return some (← EnvironmentM.addType (.ofWildcard text (bounds.map some)))
    Repeats e e₂ wildcard wildcard AlikeTypes := by
  have := growing_readAll h
  refine (repeats_readAll h).bind (fun _ => inferInstance) fun ts ts' _ _ _ _ _ alike => ?_
  refine (repeats_addWildcard text ts' (has_of_alike alike)).bind (fun _ => inferInstance) ?_
  exact fun _ _ _ _ _ _ _ alike => .pure fun _ => .some alike

end Readings

/-- The type can be read at every place, again and again. -/
def TypeReading.IsRepeatable (reading : TypeReading) : Prop :=
  (∀ place, Environment.IsRepeatable (reading.here place)) ∧
    ∀ part ∈ reading.parts, ∀ place, Environment.IsRepeatable (part place)

theorem typeReadingStep_isRepeatable (n : Node) (below : List (Node × TypeReading))
    (ih : ∀ each ∈ below, TypeReading.IsRepeatable each.2) :
    TypeReading.IsRepeatable (typeReadingStep n below) := by
  have named : ∀ each ∈ below.filter (·.1.isNamed), TypeReading.IsRepeatable each.2 :=
    fun each h => ih each (List.mem_filter.1 h).1
  have growing : ∀ place, Growing ((typeReadingStep n below).here place) := by
    refine fun place => .of_keeps fun e => (typeReadingStep_keeps n below fun each h => ?_).1 place
    refine ⟨fun place => ?_, fun part member place => ?_⟩
    · have := ((ih each h).1 place).growing
      exact Growing.keeps _ e
    · have := ((ih each h).2 part member place).growing
      exact Growing.keeps _ e
  refine ⟨fun place => ⟨growing place, fun e e₂ => ?_⟩, ?_⟩
  · have := growing place
    refine .of_agrees fun (agrees : e.Agrees e₂) => .get_bind ?_
    simp only [exchange_self, agrees.grown.document]
    split
    iterate 4 exact repeats_some inferInstance (repeats_primitiveType _)
    · -- an array over the type below
      split
      · next h =>
        have element := (ih _ (List.mem_of_find?_eq_some h)).1 place
        have := element.growing
        exact (element.repeats e e₂).bind (fun _ => inferInstance) fun o o' _ _ _ _ _ alike =>
          repeats_arrayOf alike _
      · exact Repeats.bind (fun _ => inferInstance) (.pure fun _ => .none)
          fun o o' _ _ _ _ _ alike => repeats_arrayOf alike _
    · -- a generic type with its arguments
      refine .ofExcept_bind fun base h => ⟨base, h, ?_⟩
      have generic := (named base (List.mem_of_mem_head? (needed_eq_ok.1 h))).1 place
      have := generic.growing
      split
      · next h =>
        have arguments := (ih _ (List.mem_of_find?_eq_some h)).2
        have all := fun part member => arguments part member place
        have := growing_readAll all
        refine (generic.repeats e e₂).bind (fun _ => inferInstance) fun o o' _ _ _ _ _ alike => ?_
        refine (repeats_readAll all).bind (fun _ => inferInstance) fun ts ts' _ _ grown grown' _ each => ?_
        exact repeats_parameterized (alike.grown grown grown') each
      · refine (generic.repeats e e₂).bind (fun _ => inferInstance) fun o o' _ _ _ _ _ alike => ?_
        exact repeats_parameterized alike .nil
    · exact repeats_some (growing_resolveTypeNameIn _ _) (repeats_resolveTypeNameIn _ _)
    · exact repeats_some (growing_resolveQualifiedTypeIn _ _) (repeats_resolveQualifiedTypeIn _ _)
    · refine .ofExcept_bind fun last h => ⟨last, h, ?_⟩
      exact ((named last (List.mem_of_getLast? (needed_eq_ok.1 h))).1 place).repeats e e₂
    · -- a wildcard with its bounds
      apply repeats_wildcard
      intro part h
      obtain ⟨each, member, rfl⟩ := List.mem_map.1 h
      exact (named each (List.mem_filter.1 member).1).1 place
    · exact repeats_some inferInstance (repeats_recoveredType _)
  · intro part h
    obtain ⟨each, member, rfl⟩ := List.mem_map.1 h
    exact (named each member).1

theorem isRepeatable_resolveType (n place : Node) : IsRepeatable (resolveType n place) :=
  (Node.fold_induction (P := fun _ => TypeReading.IsRepeatable) typeReadingStep_isRepeatable n).1 place

theorem isRepeatable_resolveType? (n : Option Node) (place : Node) :
    IsRepeatable (resolveType? n place) := by
  cases n with
  | none => exact .none
  | some n => exact isRepeatable_resolveType n place

end Environment

end JavaScope
