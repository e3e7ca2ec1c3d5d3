import JavaScope.Proofs.Environment.Outline

/-!
# Complete environments are closed

The types that are resolved are in the store, so what the second pass fills in does not dangle
either. `Environment.Ready` collects what is known of an environment once it is built.
-/

namespace JavaScope

namespace Environment

/-- The environment is closed and has these types. -/
def ClosedWith (ids : List TypeId) (e : Environment) : Prop :=
  e.Closed ∧ ∀ t ∈ ids, e.store.Has (.type t)

variable {ids : List TypeId}

theorem ClosedWith.mono {e : Environment} {ids' : List TypeId} (h : e.ClosedWith ids)
    (sub : ∀ t ∈ ids', t ∈ ids) : e.ClosedWith ids' :=
  ⟨h.1, fun t ht => h.2 t (sub t ht)⟩

theorem ClosedWith.nil {e : Environment} (closed : e.Closed) : e.ClosedWith [] :=
  ⟨closed, by simp⟩

theorem ClosedWith.cons {e : Environment} {t : TypeId} (h : e.ClosedWith ids)
    (ht : e.store.Has (.type t)) : e.ClosedWith (t :: ids) := by
  refine ⟨h.1, fun u hu => ?_⟩
  rcases List.mem_cons.1 hu with rfl | hu
  · exact ht
  · exact h.2 u hu

/-! ## Types made on first use -/

theorem ClosedWith.addType {e : Environment} {b : TypeBinding} (h : e.ClosedWith ids)
    (links : ∀ u ∈ b.links, e.store.Has (.type u)) :
    ClosedWith ((e.store.addType b).1 :: ids) { e with store := (e.store.addType b).2 } := by
  have has : ∀ b', e.store.Has b' → (e.store.addType b).2.Has b' :=
    fun b' hb' => hb'.mono (by simp) (Nat.le_refl _) (Nat.le_refl _)
  have closed : Closed { e with store := (e.store.addType b).2 } := {
    store := h.1.store.addType links
    declared := fun b' hb' => has b' (h.1.declared b' hb')
    types := fun t ht => has _ (h.1.types t ht)
    recovered := fun entry he => has _ (h.1.recovered entry he)
    derived := fun entry he => has _ (h.1.derived entry he) }
  refine ClosedWith.cons ⟨closed, fun t ht => has _ (h.2 t ht)⟩ ?_
  show e.store.types.size < (e.store.addType b).2.types.size
  rw [Store.size_addType]
  exact Nat.lt_succ_self _

theorem ensures_addType {b : TypeBinding} {P : Environment → Prop}
    (h : ∀ e, P e → e.ClosedWith ids ∧ ∀ u ∈ b.links, e.store.Has (.type u)) :
    Ensures P (EnvironmentM.addType b) fun t => ClosedWith (t :: ids) :=
  .modifyGet fun e he => (h e he).1.addType (h e he).2

theorem mem_of_lookup {κ α : Type} [BEq κ] [LawfulBEq κ] {table : List (κ × α)} {key : κ} {a : α}
    (h : table.lookup key = some a) : (key, a) ∈ table := by
  induction table with
  | nil => cases h
  | cons entry rest ih =>
    obtain ⟨k, b⟩ := entry
    by_cases hk : key = k
    · subst hk
      rw [List.lookup_cons_self] at h
      cases h
      exact List.mem_cons_self
    · have hk' : (key == k) = false := beq_eq_false_iff_ne.2 hk
      rw [List.lookup_cons, hk'] at h
      exact List.mem_cons_of_mem _ (ih h)

theorem ensures_recoveredType (name : String) :
    Ensures (ClosedWith ids) (recoveredType name) fun t => ClosedWith (t :: ids) := by
  intro e h t e' run
  rw [recoveredType, outcome_bind_of_ok (outcome_get e)] at run
  cases found : e.recovered.lookup name with
  | some u =>
    rw [found] at run
    cases run
    exact h.cons (h.1.recovered _ (mem_of_lookup found))
  | none =>
    rw [found] at run
    cases run
    obtain ⟨closed, has⟩ := h.addType (b := {
      name := lastSegment name
      qualifiedName := name
      package := qualifierOfName name
      modifiers := .public
      recovered := true }) (by rintro _ ⟨⟩)
    refine ⟨{ closed with recovered := fun entry he => ?_ }, has⟩
    rcases List.mem_cons.1 he with rfl | he
    · exact has _ List.mem_cons_self
    · exact closed.recovered entry he

theorem ensures_derivedType (key : String) {b : TypeBinding} {P : Environment → Prop}
    (hP : ∀ e, P e → e.ClosedWith ids ∧ ∀ u ∈ b.links, e.store.Has (.type u)) :
    Ensures P (derivedType key b) fun t => ClosedWith (t :: ids) := by
  intro e h t e' run
  obtain ⟨h, links⟩ := hP e h
  rw [derivedType, outcome_bind_of_ok (outcome_get e)] at run
  cases found : e.derived.lookup key with
  | some u =>
    rw [found] at run
    cases run
    exact h.cons (h.1.derived _ (mem_of_lookup found))
  | none =>
    rw [found] at run
    cases run
    obtain ⟨closed, has⟩ := h.addType links
    refine ⟨{ closed with derived := fun entry he => ?_ }, has⟩
    rcases List.mem_cons.1 he with rfl | he
    · exact has _ List.mem_cons_self
    · exact closed.derived entry he

theorem ensures_primitiveType (name : String) :
    Ensures (ClosedWith ids) (primitiveType name) fun t => ClosedWith (t :: ids) :=
  ensures_derivedType name fun _ h => ⟨h, nofun⟩

theorem ensures_read {α : Type} {P : Environment → Prop} (f : Environment → α) :
    Ensures P (EnvironmentM.read f) fun a e => a = f e ∧ P e := by
  rintro e h _ _ ⟨⟩
  exact ⟨rfl, h⟩

theorem ensures_flatArrayOf {element : TypeId} (dimensions : Int) (member : element ∈ ids) :
    Ensures (ClosedWith ids) (flatArrayOf element dimensions) fun t => ClosedWith (t :: ids) := by
  refine (ensures_read store).bind fun s => ?_
  refine Ensures.bind (.ofExcept fun e h _ _ => h.2) fun key => ensures_derivedType _ fun e h => ?_
  refine ⟨h, fun u hu => ?_⟩
  have heq : u = element := by simpa [TypeBinding.links] using hu
  rw [heq]
  exact h.2 element member

theorem ensures_arrayOf {element : Option TypeId} (dimensions : Int) (member : ∀ t ∈ element, t ∈ ids) :
    Ensures (ClosedWith ids) (arrayOf element dimensions) fun o => ClosedWith (o.toList ++ ids) := by
  cases element with
  | none => exact .pure fun e h => h
  | some element =>
    have hmem := member element rfl
    refine .ite (fun _ => .pure fun e h => h.cons (h.2 element hmem)) fun _ => ?_
    refine (ensures_read store).bind fun s => .ite (fun _ => ?_) fun _ => ?_
    · refine Ensures.bind (Q := fun inner => ClosedWith (inner :: ids)) ?_ fun inner => ?_
      · refine .ofExcept fun e h inner needs => h.2.cons ?_
        apply h.2.1.store.types element inner
        rw [← h.1]
        simp [TypeBinding.links, needed_eq_ok.1 needs]
      · refine (ensures_flatArrayOf _ List.mem_cons_self).bind fun t => .pure fun e h => ?_
        apply h.mono
        intro u hu
        simp only [Option.toList, List.cons_append, List.nil_append, List.mem_cons] at hu ⊢
        exact hu.imp_right .inr
    · refine Ensures.bind (Ensures.weaken (ensures_flatArrayOf _ hmem) (fun e h => h.2) fun _ _ h => h)
        fun t => .pure fun e h => h

theorem ensures_parameterized {generic : Option TypeId} {arguments : List TypeId}
    (hgeneric : ∀ t ∈ generic, t ∈ ids) (harguments : ∀ t ∈ arguments, t ∈ ids) :
    Ensures (ClosedWith ids) (parameterized generic arguments)
      fun o => ClosedWith (o.toList ++ ids) := by
  refine .ite (fun _ => .pure fun e h => ?_) fun _ => ?_
  · cases generic with
    | none => exact h
    | some generic => exact h.cons (h.2 generic (hgeneric generic rfl))
  · refine Ensures.bind (Q := fun t e => t ∈ ids ∧ e.ClosedWith ids)
      (.ofExcept fun e h t needs => ⟨hgeneric t (needed_eq_ok.1 needs), h⟩) fun t => .of_fact fun ht => ?_
    refine Ensures.bind (P := ClosedWith ids) (ensures_read store) fun s => ?_
    refine Ensures.bind (.ofExcept fun e h _ _ => h) fun keys => ?_
    refine Ensures.bind (.ofExcept fun e h _ _ => h) fun key => ?_
    refine (ensures_derivedType _ fun e h => ⟨h.2, fun u hu => ?_⟩).bind fun t => .pure fun e h => h
    have hu' : (s.type t).declaringClass = some u ∨ u ∈ arguments ∨ u = t := by
      simpa [TypeBinding.links] using hu
    rcases hu' with hu | hu | rfl
    · apply h.2.1.store.types t u
      rw [← h.1]
      simp [TypeBinding.links, hu]
    · exact h.2.2 u (harguments u hu)
    · exact h.2.2 u ht

/-! ## Names of types -/

theorem has_findType {e : Environment} {name : String} {t : TypeId} (h : e.Closed)
    (found : e.findType name = some t) : e.store.Has (.type t) := by
  obtain ⟨b, hb, hfound⟩ := List.exists_of_findSome?_eq_some found
  cases b with
  | type u =>
    simp only [BindingId.typeId?, Option.bind_eq_bind, Option.bind_some] at hfound
    split at hfound
    · cases hfound
      exact h.declared _ hb
    · cases hfound
  | «variable» v => cases hfound
  | method m => cases hfound

theorem mem_of_typeNamed {e : Environment} {name : String} {types : List TypeId} {t : TypeId}
    (found : e.typeNamed name types = some t) : t ∈ types :=
  List.mem_of_find?_eq_some found

theorem has_typeAt {e : Environment} {n : Node} {t : TypeId} (h : e.Closed)
    (found : e.typeAt n = some t) : e.store.Has (.type t) := by
  obtain ⟨b, hb, hbt⟩ := Option.bind_eq_some_iff.1 found
  cases b with
  | type u =>
    cases hbt
    exact h.declared _ (List.mem_map_of_mem (mem_of_lookup hb))
  | «variable» v => cases hbt
  | method m => cases hbt

theorem has_of_mem_declaredTypes {e : Environment} {t u : TypeId} (h : e.Closed)
    (member : t ∈ (e.store.type u).declaredTypes) : e.store.Has (.type t) :=
  h.store.types u t (by simp [TypeBinding.links, member])

theorem has_typeInScopeOf {e : Environment} {n : Node} {name : String} {t : TypeId} (h : e.Closed)
    (found : e.typeInScopeOf n name = some t) : e.store.Has (.type t) := by
  rcases Option.or_eq_some_iff.1 found with found | ⟨-, found⟩
  · obtain ⟨b, hb, found⟩ := Option.bind_eq_some_iff.1 found
    rcases Option.or_eq_some_iff.1 found with found | ⟨-, found⟩
    · have member := mem_of_typeNamed found
      cases b with
      | type u => exact h.store.types u t (by simp_all [TypeBinding.links, typeParametersOf])
      | method m => exact h.store.methods m t (by simp_all [MethodBinding.links, typeParametersOf])
      | «variable» v => cases member
    · obtain ⟨u, hu, offered⟩ := Option.bind_eq_some_iff.1 found
      cases b with
      | type u' =>
        cases hu
        unfold typeOfferedBy at offered
        dsimp only at offered
        split at offered
        · cases offered
        · split at offered
          · cases offered
            exact h.declared _ (List.mem_map_of_mem (mem_of_lookup hb))
          · exact has_of_mem_declaredTypes h (mem_of_typeNamed offered)
      | method m => cases hu
      | «variable» v => cases hu
  · split at found
    · obtain ⟨c, -, found⟩ := Option.bind_eq_some_iff.1 found
      exact has_typeAt h found
    · cases found

theorem ensures_resolveTypeNameIn (scopes : List Node) (name : String) :
    Ensures (ClosedWith ids) (resolveTypeNameIn scopes name) fun t => ClosedWith (t :: ids) := by
  refine Ensures.bind (Q := fun a e => a = e ∧ e.ClosedWith ids) (.get fun e h => ⟨rfl, h⟩) fun e => ?_
  split
  · next t found =>
    refine .pure fun e' ⟨heq, h⟩ => h.cons ?_
    subst heq
    rcases Option.or_eq_some_iff.1 found with found | ⟨-, found⟩
    · obtain ⟨n, -, found⟩ := List.exists_of_findSome?_eq_some found
      exact has_typeInScopeOf h.1 found
    · exact h.1.types t (mem_of_typeNamed found)
  · have recovered : ∀ name, Ensures (fun e' => e = e' ∧ e'.ClosedWith ids) (recoveredType name)
        fun t => ClosedWith (t :: ids) :=
      fun name => (ensures_recoveredType name).weaken (fun e h => h.2) fun _ _ h => h
    split
    · split
      · next found =>
        refine .pure fun e' ⟨heq, h⟩ => h.cons ?_
        subst heq
        exact has_findType h.1 found
      · exact recovered _
    · exact .ite (fun _ => recovered _) fun _ => recovered _

theorem has_memberAlong {e : Environment} {t u : TypeId} {path : List String} (h : e.Closed)
    (ht : e.store.Has (.type t)) (found : e.memberAlong t path = some u) :
    e.store.Has (.type u) := by
  induction path generalizing t with
  | nil =>
    cases found
    exact ht
  | cons name path ih =>
    obtain ⟨c, hc, found⟩ := Option.bind_eq_some_iff.1 found
    exact ih (has_of_mem_declaredTypes h (mem_of_typeNamed hc)) found

theorem ensures_resolveQualifiedTypeIn (scopes : List Node) (dotted : String) :
    Ensures (ClosedWith ids) (resolveQualifiedTypeIn scopes dotted)
      fun t => ClosedWith (t :: ids) := by
  refine Ensures.bind (Q := fun a e => a = e ∧ e.ClosedWith ids) (.get fun e h => ⟨rfl, h⟩) fun e => ?_
  split
  · next found =>
    refine .pure fun e' ⟨heq, h⟩ => h.cons ?_
    subst heq
    exact has_findType h.1 found
  · refine Ensures.bind ((ensures_resolveTypeNameIn scopes _).weaken (fun e h => h.2) fun _ _ h => h)
      fun first => ?_
    refine Ensures.bind (Q := fun a e => a = e ∧ e.ClosedWith (first :: ids))
      (.get fun e h => ⟨rfl, h⟩) fun e => ?_
    have recovered : Ensures (fun e' => e = e' ∧ e'.ClosedWith (first :: ids)) (recoveredType dotted)
        fun t => ClosedWith (t :: ids) := by
      refine (ensures_recoveredType dotted).weaken (fun e h => h.2) fun t e h => h.mono fun u hu => ?_
      rcases List.mem_cons.1 hu with rfl | hu
      · exact List.mem_cons_self
      · exact List.mem_cons_of_mem _ (List.mem_cons_of_mem _ hu)
    refine .ite (fun _ => recovered) fun _ => ?_
    split
    · next t found =>
      refine .pure fun e' ⟨heq, h⟩ => ?_
      subst heq
      have h' := h.mono fun u hu => List.mem_cons_of_mem first hu
      exact h'.cons (has_memberAlong h.1 (h.2 first List.mem_cons_self) found)
    · exact recovered

/-! ## Types in the text -/

theorem ensures_mapM {α : Type} {xs : List α} {f : α → EnvironmentM (Option TypeId)}
    (h : ∀ x ∈ xs, ∀ ids, Ensures (ClosedWith ids) (f x) fun o => ClosedWith (o.toList ++ ids)) :
    Ensures (ClosedWith ids) (xs.mapM f) fun found => ClosedWith (found.filterMap id ++ ids) := by
  induction xs generalizing ids with
  | nil => exact .pure fun e h => h
  | cons x xs ih =>
    rw [List.mapM_cons]
    refine (h x List.mem_cons_self ids).bind fun o => ?_
    refine Ensures.bind (ih fun y hy => h y (List.mem_cons_of_mem x hy)) fun found => ?_
    refine .pure fun e h => h.mono fun t ht => ?_
    simp only [List.mem_append, List.mem_filterMap, List.mem_cons, id_eq, Option.mem_toList] at ht ⊢
    grind

/-- Every reading of the type answers with a type that is there. -/
def TypeReading.Closes (reading : TypeReading) : Prop :=
  (∀ place ids, Ensures (ClosedWith ids) (reading.here place)
      fun o => ClosedWith (o.toList ++ ids)) ∧
    ∀ part ∈ reading.parts, ∀ place ids, Ensures (ClosedWith ids) (part place)
      fun o => ClosedWith (o.toList ++ ids)

theorem ensures_readAll (place : Node) {readings : List (Node → EnvironmentM (Option TypeId))}
    (h : ∀ reading ∈ readings, ∀ ids, Ensures (ClosedWith ids) (reading place)
      fun o => ClosedWith (o.toList ++ ids)) :
    Ensures (ClosedWith ids) (readAll place readings) fun ts => ClosedWith (ts ++ ids) :=
  (ensures_mapM h).bind fun _ => .pure fun _ h => h

/-- What an answer was made of may be left out. -/
theorem ensures_forget {a : EnvironmentM (Option TypeId)} {P : Environment → Prop}
    {ids' : List TypeId} (h : Ensures P a fun o => ClosedWith (o.toList ++ (ids' ++ ids))) :
    Ensures P a fun o => ClosedWith (o.toList ++ ids) :=
  h.weaken (fun _ h => h) fun o e h => h.mono fun t ht => by
    simp only [List.mem_append] at ht ⊢
    exact ht.imp_right .inr

theorem typeReadingStep_closes (n : Node) (below : List (Node × TypeReading))
    (ih : ∀ each ∈ below, TypeReading.Closes each.2) :
    TypeReading.Closes (typeReadingStep n below) := by
  have named : ∀ each ∈ below.filter (·.1.isNamed), TypeReading.Closes each.2 :=
    fun each h => ih each (List.mem_filter.1 h).1
  have single : ∀ {ids} {a : EnvironmentM TypeId}, Ensures (ClosedWith ids) a
      (fun t => ClosedWith (t :: ids)) →
      Ensures (ClosedWith ids) (do return some (← a)) fun o => ClosedWith (o.toList ++ ids) :=
    fun h => h.bind fun t => .pure fun e h => h
  refine ⟨fun place ids => Ensures.bind (.get fun _ h => h) fun e => ?_, ?_⟩
  · dsimp only
    split
    iterate 4 exact single (ensures_primitiveType _)
    · -- an array over the type below
      split
      · next h =>
        refine ((ih _ (List.mem_of_find?_eq_some h)).1 place ids).bind fun t => ?_
        refine ensures_forget (ensures_arrayOf _ fun u hu => ?_)
        exact List.mem_append_left _ (Option.mem_toList.2 hu)
      · rw [pure_bind]
        exact ensures_arrayOf _ (by rintro _ ⟨⟩)
    · -- a generic type with its arguments
      refine .ofExcept_bind fun base hbase => ?_
      have reads := named base (List.mem_of_mem_head? (needed_eq_ok.1 hbase))
      refine (reads.1 place ids).bind fun generic => ?_
      have derive : ∀ ts, Ensures (ClosedWith (ts ++ (generic.toList ++ ids)))
          (parameterized generic ts) fun o => ClosedWith (o.toList ++ ids) := by
        refine fun ts => ensures_forget (ensures_forget (ensures_parameterized ?_ ?_))
        · exact fun t ht => List.mem_append_right _ (List.mem_append_left _ (Option.mem_toList.2 ht))
        · exact fun t ht => List.mem_append_left _ ht
      split
      · next h =>
        have harguments := ih _ (List.mem_of_find?_eq_some h)
        exact (ensures_readAll place fun part hp => harguments.2 part hp place).bind derive
      · rw [pure_bind]
        exact derive []
    · exact single (ensures_resolveTypeNameIn _ _)
    · exact single (ensures_resolveQualifiedTypeIn _ _)
    · refine .ofExcept_bind fun last hlast => ?_
      exact (named last (List.mem_of_getLast? (needed_eq_ok.1 hlast))).1 place ids
    · refine (ensures_readAll place fun part hp => ?_).bind fun bounds => ?_
      · obtain ⟨each, member, rfl⟩ := List.mem_map.1 hp
        exact (named each (List.mem_filter.1 member).1).1 place
      · refine Ensures.bind (ensures_addType fun e h => ⟨h.mono ?_, fun u hu => h.2 u ?_⟩) fun t =>
          .pure fun e h => h
        · exact fun t ht => List.mem_append_right _ ht
        · exact List.mem_append_left _ (by simpa [TypeBinding.links] using hu)
    · exact single (ensures_recoveredType _)
  · intro part h
    obtain ⟨each, member, rfl⟩ := List.mem_map.1 h
    exact (named each member).1

theorem ensures_resolveType (n place : Node) :
    Ensures (ClosedWith ids) (resolveType n place) fun o => ClosedWith (o.toList ++ ids) :=
  (Node.fold_induction (P := fun _ => TypeReading.Closes) typeReadingStep_closes n).1 place ids

theorem ensures_resolveType? (n : Option Node) (place : Node) :
    Ensures (ClosedWith ids) (resolveType? n place) fun o => ClosedWith (o.toList ++ ids) := by
  cases n with
  | none => exact .pure fun _ h => h
  | some n => exact ensures_resolveType n place

/-! ## The second pass -/

theorem Closed.setStore {e : Environment} {s : Store} (h : e.Closed) (closed : s.Closed)
    (has : ∀ b, e.store.Has b → s.Has b) : Closed { e with store := s } where
  store := closed
  declared b hb := has b (h.declared b hb)
  types t ht := has _ (h.types t ht)
  recovered entry he := has _ (h.recovered entry he)
  derived entry he := has _ (h.derived entry he)

theorem ensures_modifyType (t : TypeId) {change : TypeBinding → TypeBinding}
    (links : ∀ b, ∀ u ∈ (change b).links, u ∈ b.links ∨ u ∈ ids) :
    Ensures (ClosedWith ids) (EnvironmentM.modifyType t change) fun _ => ClosedWith [] := by
  refine .modify fun e h => ⟨h.1.setStore ?_ ?_, nofun⟩
  · exact h.1.store.modifyType fun b u hu => (links b u hu).imp_right fun hu => h.2 u hu
  · exact fun b hb => hb.mono (by simp) (Nat.le_refl _) (Nat.le_refl _)

theorem ensures_modifyVariable (v : VariableId) {change : VariableBinding → VariableBinding}
    (links : ∀ b, ∀ u ∈ (change b).links, u ∈ b.links ∨ u ∈ ids) :
    Ensures (ClosedWith ids) (EnvironmentM.modifyVariable v change) fun _ => ClosedWith [] := by
  refine .modify fun e h => ⟨h.1.setStore ?_ ?_, nofun⟩
  · exact h.1.store.modifyVariable fun b u hu => (links b u hu).imp_right fun hu => h.2 u hu
  · exact fun b hb => hb.mono (Nat.le_refl _) (by simp) (Nat.le_refl _)

theorem ensures_modifyMethod (m : MethodId) {change : MethodBinding → MethodBinding}
    (links : ∀ b, ∀ u ∈ (change b).links, u ∈ b.links ∨ u ∈ ids) :
    Ensures (ClosedWith ids) (EnvironmentM.modifyMethod m change) fun _ => ClosedWith [] := by
  refine .modify fun e h => ⟨h.1.setStore ?_ ?_, nofun⟩
  · exact h.1.store.modifyMethod fun b u hu => (links b u hu).imp_right fun hu => h.2 u hu
  · exact fun b hb => hb.mono (Nat.le_refl _) (Nat.le_refl _) (by simp)

theorem ensures_variableType (n : Node) :
    Ensures (ClosedWith []) (variableType n) fun o => ClosedWith (o.toList ++ []) := by
  refine Ensures.bind ((ensures_read document).weaken (fun _ h => h) fun _ _ h => h.2) fun d => ?_
  refine .ofExcept_bind fun declaration _ => (ensures_resolveType? _ _).bind fun base => ?_
  refine ensures_forget (ensures_arrayOf _ fun t ht => ?_)
  exact List.mem_append_left _ (Option.mem_toList.2 ht)

theorem ensures_completeTypeParameter (t : TypeId) (n : Node) :
    Ensures (ClosedWith []) (completeTypeParameter t n) fun _ => ClosedWith [] := by
  unfold completeTypeParameter
  split
  · refine (ensures_mapM fun each _ ids => ensures_resolveType each n).bind fun bounds => ?_
    apply ensures_modifyType t
    intro b u hu
    simp only [TypeBinding.links, List.mem_append] at hu ⊢
    grind
  · exact .pure fun _ h => h

theorem ensures_impliedSuperclass (b : TypeBinding) :
    Ensures (ClosedWith []) (impliedSuperclass b) fun o => ClosedWith (o.toList ++ []) := by
  have single : ∀ name, Ensures (ClosedWith []) (do return some (← recoveredType name))
      fun o => ClosedWith (o.toList ++ []) :=
    fun name => (ensures_recoveredType name).bind fun t => .pure fun e h => h
  unfold impliedSuperclass
  split
  · exact .ite (fun _ => .pure fun _ h => h) fun _ => single _
  · exact single _
  · exact single _
  · exact .pure fun _ h => h

theorem ensures_completeNamedType (t : TypeId) (n : Node) :
    Ensures (ClosedWith []) (completeNamedType t n) fun _ => ClosedWith [] := by
  have supertypes : ∀ superclass : Option TypeId, Ensures (ClosedWith (superclass.toList ++ [])) (do
      EnvironmentM.modifyType t fun b => { b with superclass := superclass }
      (listedInterfaces n .superInterfaces ++ listedInterfaces n .extendsInterfaces).forM
        fun each => do
          let up ← resolveType each n
          EnvironmentM.modifyType t fun b => { b with interfaces := b.interfaces ++ [up] })
      fun _ => ClosedWith [] := by
    intro superclass
    refine Ensures.bind (ensures_modifyType t fun b u hu => ?_) fun _ => .forM fun each _ => ?_
    · simp only [TypeBinding.links, List.mem_append, List.append_nil] at hu ⊢
      grind
    · refine (ensures_resolveType each n).bind fun up => ensures_modifyType t fun b u hu => ?_
      simp only [TypeBinding.links, List.filterMap_append, List.mem_append, List.append_nil] at hu ⊢
      have single : ∀ u, u ∈ [up].filterMap id → u ∈ up.toList := by
        cases up <;> simp
      grind
  unfold completeNamedType
  dsimp only
  split
  · exact (ensures_resolveType _ n).bind supertypes
  · refine Ensures.bind ((ensures_read store).weaken (fun _ h => h) fun _ _ h => h.2) fun s => ?_
    exact (ensures_impliedSuperclass _).bind supertypes

theorem ensures_completeAnonymous (t : TypeId) (body : Node) :
    Ensures (ClosedWith []) (completeAnonymous t body) fun _ => ClosedWith [] := by
  refine .ofExcept_bind fun creation _ => .ite (fun _ => ?_) fun _ => ?_
  · refine ensures_modifyType t fun b u hu => .inl ?_
    simp only [TypeBinding.links, List.mem_append] at hu ⊢
    grind
  refine (ensures_resolveType? _ _).bind fun up => ?_
  cases up with
  | none =>
    refine Ensures.bind (ensures_recoveredType objectName) fun object => ?_
    apply ensures_modifyType t
    intro b u hu
    simp only [TypeBinding.links, Option.toList, List.mem_append] at hu ⊢
    grind
  | some up =>
    refine Ensures.bind ((ensures_read store).weaken (fun _ h => h) fun _ _ h => h.2) fun s =>
      .ite (fun _ => ?_) fun _ => ?_
    · refine Ensures.bind (ensures_recoveredType objectName) fun object => ?_
      apply ensures_modifyType t
      intro b u hu
      simp only [TypeBinding.links, Option.toList, List.mem_append, List.filterMap_append,
        List.filterMap_cons, List.filterMap_nil, id_eq] at hu ⊢
      grind
    · apply ensures_modifyType t
      intro b u hu
      simp only [TypeBinding.links, Option.toList, List.mem_append] at hu ⊢
      grind

theorem ensures_completeParameter (m : MethodId) (n : Node) :
    Ensures (ClosedWith []) (completeParameter m n) fun _ => ClosedWith [] := by
  refine (ensures_variableType n).bind fun type => ?_
  refine Ensures.bind ((ensures_read document).weaken (fun _ h => h) fun _ _ h => h.2) fun d => ?_
  apply ensures_modifyMethod m
  intro b u hu
  simp only [MethodBinding.links, List.filterMap_append, List.mem_append, List.append_nil] at hu ⊢
  have single : ∀ u, u ∈ [type].filterMap id → u ∈ type.toList := by
    cases type <;> simp
  grind

theorem ensures_completeMethod (m : MethodId) (n : Node) :
    Ensures (ClosedWith []) (completeMethod m n) fun _ => ClosedWith [] := by
  have void : Ensures (ClosedWith []) (some <$> primitiveType "void") fun t =>
      ClosedWith (t.toList ++ []) := .map some (ensures_primitiveType "void")
  refine Ensures.bind ((ensures_read store).weaken (fun _ h => h) fun _ _ h => h.2) fun s =>
    .ite (fun _ => void.bind fun returnType => ?_)
      fun _ => (ensures_resolveType? _ _).bind fun returnType => ?_
  -- both kinds of method store their return type and go on with the parameters
  all_goals
    refine Ensures.bind (ensures_modifyMethod m fun b u hu => ?_) fun _ => ?_
    · simp only [MethodBinding.links, List.mem_append, List.append_nil] at hu ⊢
      grind
    · split
      · exact .forM fun each _ => ensures_completeParameter m each
      · exact .pure fun _ h => h

theorem ensures_complete (b : BindingId) (n : Node) :
    Ensures (ClosedWith []) (complete b n) fun _ => ClosedWith [] := by
  cases b with
  | type t =>
    refine Ensures.bind ((ensures_read store).weaken (fun _ h => h) fun _ _ h => h.2) fun s => ?_
    exact .ite (fun _ => ensures_completeTypeParameter t n) fun _ =>
      .ite (fun _ => ensures_completeAnonymous t n) fun _ => ensures_completeNamedType t n
  | method m => exact ensures_completeMethod m n
  | «variable» v =>
    refine (ensures_variableType n).bind fun type => ensures_modifyVariable v fun b u hu => ?_
    simp only [VariableBinding.links, List.mem_append, List.append_nil] at hu ⊢
    grind

/-! ## Built environments -/

/-- The types that are declared or that a type declares. -/
def Declares (e : Environment) (t : TypeId) : Prop :=
  .type t ∈ e.bindings ∨ t ∈ e.types ∨
    ∃ u, t ∈ (e.store.type u).declaredTypes ∨ t ∈ (e.store.type u).typeParameters

/-- What is known of an environment once it is built. -/
structure Ready (c : Context) (e : Environment) : Prop where
  sound : e.Sound c
  plain : ∀ t, e.Declares t → e.store.IsPlain t
  owners : ∀ t u, (e.store.type t).genericType = none → (e.store.type t).declaringClass = some u →
    e.store.IsPlain u

/-- A built environment comes from a draft by completing what waits for it. -/
theorem build_eq_ok {c : Context} {e : Environment} (h : build c = .ok e) :
    ∃ d, declared c = .ok d ∧
      outcome (d.pending.forM fun (b, n) => complete b n) d.toEnvironment = (.ok (), e) := by
  unfold build at h
  cases hd : declared c with
  | error f =>
    rw [hd] at h
    cases h
  | ok d =>
    rw [hd] at h
    refine ⟨d, rfl, ?_⟩
    change (outcome (d.pending.forM fun (b, n) => complete b n) d.toEnvironment).1.map
      (fun _ => (outcome (d.pending.forM fun (b, n) => complete b n) d.toEnvironment).2) = .ok e at h
    rcases run : outcome (d.pending.forM fun (b, n) => complete b n) d.toEnvironment with ⟨f | ⟨⟩, e'⟩
    · rw [run] at h
      cases h
    · rw [run] at h
      cases h
      rfl

/-- The second pass keeps the outline of the draft. -/
theorem outlines_of_completes {d : Draft} {e : Environment}
    (completes : outcome (d.pending.forM fun (b, n) => complete b n) d.toEnvironment = (.ok (), e)) :
    d.toEnvironment.Outlines e := by
  have keeps : Keeps d.toEnvironment.Outlines (d.pending.forM fun (b, n) => complete b n) :=
    .forM fun each _ => outlines_complete each.1 each.2
  have kept := keeps d.toEnvironment (.refl d.toEnvironment)
  rw [completes] at kept
  exact kept

theorem has_of_declares {e : Environment} {t : TypeId} (h : e.Closed) (ht : e.Declares t) :
    e.store.Has (.type t) := by
  rcases ht with ht | ht | ⟨u, ht | ht⟩
  · exact h.declared _ ht
  · exact h.types t ht
  · exact h.store.types u t (by simp [TypeBinding.links, ht])
  · exact h.store.types u t (by simp [TypeBinding.links, ht])

theorem Outlines.bindings {e e' : Environment} (h : e.Outlines e') : e'.bindings = e.bindings := by
  rw [Environment.bindings, Environment.bindings, h.declarations]

/-- With the outline of an environment comes what its types declare. -/
theorem Outlines.declares_eq {e e' : Environment} (h : e.Outlines e') (t : TypeId) :
    (e'.store.type t).declaredFields = (e.store.type t).declaredFields ∧
      (e'.store.type t).declaredTypes = (e.store.type t).declaredTypes ∧
      (e'.store.type t).typeParameters = (e.store.type t).typeParameters := by
  by_cases ht : t.index < e.store.types.size
  · have same := h.store.type t ht
    exact ⟨(congrArg TypeBinding.declaredFields same :), (congrArg TypeBinding.declaredTypes same :),
      (congrArg TypeBinding.typeParameters same :)⟩
  · have bare := h.store.bare t (Nat.le_of_not_lt ht)
    rw [Store.type_of_size_le (Nat.le_of_not_lt ht)]
    exact ⟨bare.fields, bare.types, bare.parameters⟩

theorem Outlines.declares {e e' : Environment} (h : e.Outlines e') {t : TypeId}
    (ht : e'.Declares t) : e.Declares t := by
  rcases ht with ht | ht | ⟨u, ht⟩
  · rw [h.bindings] at ht
    exact .inl ht
  · rw [h.types] at ht
    exact .inr (.inl ht)
  · obtain ⟨-, types, parameters⟩ := h.declares_eq u
    rw [types, parameters] at ht
    exact .inr (.inr ⟨u, ht⟩)

/-- A built environment is closed, files every binding once, and no use of a generic type is declared
or encloses a declaration. -/
theorem build_ready {c : Context} {e : Environment} (h : build c = .ok e) : e.Ready c := by
  obtain ⟨d, declares, completes⟩ := build_eq_ok h
  have start := declared_sound declares
  have outlines := outlines_of_completes completes
  have closed : e.ClosedWith [] :=
    Ensures.forM (fun each _ => ensures_complete each.1 each.2) d.toEnvironment
      ⟨start.sound.closed, nofun⟩ _ _ completes
  have plain : ∀ t, d.store.Has (.type t) → e.store.IsPlain t := fun t has =>
    ⟨has.mono outlines.store.size (Nat.le_of_eq outlines.store.vars.symm)
      (Nat.le_of_eq outlines.store.methods.symm),
      (congrArg TypeBinding.genericType (outlines.store.type t has)).trans (start.plain t).generic⟩
  refine ⟨⟨?_, closed.1, ?_, ?_, ?_⟩, ?_, ?_⟩
  · exact outlines.context.trans start.sound.context
  · rw [outlines.bindings]
    exact start.sound.distinct
  · intro t v hv
    rw [(outlines.declares_eq t).1] at hv
    obtain ⟨has, field, owner, constant⟩ := start.sound.fields t v hv
    have same := outlines.store.variable_eq v
    refine ⟨?_, ?_, ?_, ?_⟩
    · exact has.mono outlines.store.size (Nat.le_of_eq outlines.store.vars.symm)
        (Nat.le_of_eq outlines.store.methods.symm)
    · exact (congrArg VariableBinding.isField same).trans field
    · exact (congrArg VariableBinding.declaringClass same).trans owner
    · intro isConstant
      have isPublic := constant ((congrArg VariableBinding.isEnumConstant same).symm.trans isConstant)
      have modifiers : (e.store.variable v).modifiers = (d.store.variable v).modifiers :=
        (congrArg VariableBinding.modifiers same :)
      rw [modifiers]
      exact isPublic
  · intro key v hv isConstant
    rw [outlines.declarations] at hv
    have same := outlines.store.variable_eq v
    exact start.sound.constants key v hv
      ((congrArg VariableBinding.isEnumConstant same).symm.trans isConstant)
  · exact fun t ht => plain t (has_of_declares start.sound.closed (outlines.declares ht))
  · intro t u generic owner
    by_cases old : t.index < d.store.types.size
    · have same : (e.store.type t).declaringClass = (d.store.type t).declaringClass :=
        (congrArg TypeBinding.declaringClass (outlines.store.type t old) :)
      rw [same] at owner
      exact plain u (start.sound.closed.store.types t u (by simp [TypeBinding.links, owner]))
    · have bare := outlines.store.bare t (Nat.le_of_not_lt old)
      rw [bare.owner generic] at owner
      cases owner

/-! ## What a node declares -/

section Nodes

variable {e : Environment} {n : Node} {b : BindingId}

theorem mem_of_declaredAt (h : e.declaredAt n = some b) : (n.key, b) ∈ e.declarations :=
  mem_of_lookup h

/-- A node declares what is filed under its own key, under that of its name, or, for a name, under
that of the node above. -/
theorem bindingOf_cases (h : e.bindingOf n = some b) :
    e.declaredAt n = some b ∨
      (∃ name, n.nameNode = some name ∧ e.declaredAt name = some b) ∨
      (∃ up name, n.parent = some up ∧ up.nameNode = some name ∧ name.key = n.key ∧
        e.declaredAt up = some b) := by
  rw [bindingOf] at h
  split at h
  · next declared =>
    cases h
    exact .inl declared
  · split at h
    · next name named => exact .inr (.inl ⟨name, named, h⟩)
    · right; right
      obtain ⟨up, above, h⟩ := Option.bind_eq_some_iff.1 h
      obtain ⟨name, named, h⟩ := Option.bind_eq_some_iff.1 h
      split at h
      · next same => exact ⟨up, name, above, named, by simpa [Node.isSame] using same, h⟩
      · cases h

theorem exists_mem_of_bindingOf (h : e.bindingOf n = some b) :
    ∃ key, (key, b) ∈ e.declarations := by
  rcases bindingOf_cases h with here | ⟨name, -, there⟩ | ⟨up, name, -, -, -, there⟩
  · exact ⟨n.key, mem_of_declaredAt here⟩
  · exact ⟨name.key, mem_of_declaredAt there⟩
  · exact ⟨up.key, mem_of_declaredAt there⟩

end Nodes

end Environment

end JavaScope
