import JavaScope.Proofs.Scope.Abreast
import JavaScope.Proofs.Scope.Hierarchy

/-!
# Members for several kinds and for one

The search through the members of a type and its supertypes visits the same types for several kinds
as for one of them, in the same order, so it offers of this kind the same members. Only the type above
all others may be made at different points of the two searches: it has a twin in the environment of
the other search.
-/

namespace JavaScope

variable {e₀ : Environment} {k : BindingKind} {tied : Prop}

/-! ## Types in two environments -/

/-- The first type is in the first environment what the second one is in the second: the same type of
`e₀`, or the type above all others, which was made on the way. In tied environments every type is its
own twin. -/
inductive Twins (e₀ : Environment) (tied : Prop) (e e' : Environment) : TypeId → TypeId → Prop
  | kept {t : TypeId} : tied ∨ e₀.store.Has (.type t) → Twins e₀ tied e e' t t
  | object {t t' : TypeId} : e₀.recovered.lookup objectName = none →
    e.recovered.lookup objectName = some t → e'.recovered.lookup objectName = some t' →
    Twins e₀ tied e e' t t'

namespace Twins

variable {e e' e₁ e₁' : Environment} {t t' u u' : TypeId}

theorem mono (h : Twins e₀ tied e e' t t') (grown : e.Grows e₁) (grown' : e'.Grows e₁') :
    Twins e₀ tied e₁ e₁' t t' := by
  cases h with
  | kept known => exact .kept known
  | object unknown first second =>
    exact .object unknown (grown.recovered _ _ first) (grown'.recovered _ _ second)

theorem of_object (closed : e₀.Closed) (grown : e₀.Grows e) (grown' : e₀.Grows e')
    (first : e.recovered.lookup objectName = some t)
    (second : e'.recovered.lookup objectName = some t') : Twins e₀ tied e e' t t' := by
  cases known : e₀.recovered.lookup objectName with
  | none => exact .object known first second
  | some u =>
    have here := grown.recovered _ _ known
    have there := grown'.recovered _ _ known
    rw [first] at here
    rw [second] at there
    cases here
    cases there
    exact .kept (.inr (closed.recovered _ (Environment.mem_of_lookup known)))

variable (first : e₀.Extends e) (second : e₀.Extends e') (same : tied → e' = e)

include first second same

/-- No type has two twins. -/
theorem eq_iff (ht : Twins e₀ tied e e' t t') (hu : Twins e₀ tied e e' u u') : t = u ↔ t' = u' := by
  have fresh : ∀ {x y z : TypeId}, e₀.recovered.lookup objectName = none →
      e.recovered.lookup objectName = some x → e'.recovered.lookup objectName = some y →
      tied ∨ e₀.store.Has (.type z) → (z = x ↔ z = y) := by
    intro x y z unknown here there known
    rcases known with ties | known
    · rw [same ties, here] at there
      cases there
      rfl
    · have behind := (first.roots _ _ unknown here).1
      have behind' := (second.roots _ _ unknown there).1
      have before : z.index < e₀.store.types.size := known
      constructor <;> (rintro rfl; omega)
  cases ht with
  | kept known =>
    cases hu with
    | kept => rfl
    | object unknown here there => exact fresh unknown here there known
  | object unknown here there =>
    cases hu with
    | kept known => rw [eq_comm, fresh unknown here there known, eq_comm]
    | object _ here' there' =>
      rw [here] at here'
      rw [there] at there'
      cases here'
      cases there'
      exact ⟨fun _ => rfl, fun _ => rfl⟩

theorem mem_iff {visited visited' : List TypeId}
    (all : List.Forall₂ (Twins e₀ tied e e') visited visited') (ht : Twins e₀ tied e e' t t') :
    t ∈ visited ↔ t' ∈ visited' := by
  induction all with
  | nil => simp
  | cons hu _ ih => rw [List.mem_cons, List.mem_cons, ih, ht.eq_iff first second same hu]

theorem declarationOfType (closed : e₀.Closed) (h : Twins e₀ tied e e' t t') :
    Twins e₀ tied e e' (e.store.declarationOfType t) (e'.store.declarationOfType t') := by
  cases h with
  | kept known =>
    rcases known with ties | known
    · rw [same ties]
      exact .kept (.inl ties)
    · have apart : e₀.store.Apart e.store e'.store := ⟨closed.store, first.store, second.store⟩
      rw [apart.declarationOfType_eq known]
      exact .kept (.inr (apart.has_declarationOfType known))
  | object unknown here there =>
    have root := (first.roots _ _ unknown here).2.2.generic
    have root' := (second.roots _ _ unknown there).2.2.generic
    rw [Store.declarationOfType, Store.declarationOfType, root, root']
    exact .object unknown here there

end Twins

/-! ## Members of one type -/

/-- Twins declare the same members. -/
theorem Twins.membersAsked_eq {e e' : Environment} {t t' : TypeId} (h : Twins e₀ tied e e' t t')
    (first : e₀.Extends e) (second : e₀.Extends e') (flags : Flags) :
    membersAsked e₀.store flags t' = membersAsked e₀.store flags t := by
  cases h with
  | kept => rfl
  | object unknown here there =>
    rw [membersAsked, membersAsked, Store.type_of_size_le (first.roots _ _ unknown here).1,
      Store.type_of_size_le (second.roots _ _ unknown there).1]

theorem filter_membersAsked {flags : Flags} (asks : flags.asks k = true) (s : Store) (t : TypeId) :
    (membersAsked s flags t).filter (·.kind == k) = membersAsked s (flags.only k) t := by
  have part : ∀ {k' : BindingKind} {xs : List BindingId}, (∀ b ∈ xs, b.kind = k') →
      (if flags.asks k' then xs else []).filter (·.kind == k) =
        if (flags.only k).asks k' then xs else [] := by
    intro k' xs kind
    by_cases isKind : k = k'
    · subst isKind
      simp [asks, filter_kind kind]
    · have none : xs.filter (·.kind == k) = [] := by rw [filter_kind kind, if_neg isKind]
      rw [Flags.asks_only, beq_eq_false_iff_ne.2 isKind, if_neg Bool.false_ne_true]
      split
      · exact none
      · rfl
  have fields := part (kind_of_mem_map (f := .variable) (fun _ => rfl) (s.type t).declaredFields)
  have methods := part (kind_of_mem_map (f := .method) (fun _ => rfl)
    ((s.type t).declaredMethods.filter fun m => !(s.method m).isConstructor))
  have types := part (kind_of_mem_map (f := .type) (fun _ => rfl) (s.type t).declaredTypes)
  rw [membersAsked, List.filter_append, List.filter_append]
  exact congr (congrArg _ (congr (congrArg _ fields) methods)) types

/-- The members of twins. -/
theorem parallel_offerMembers (closed : e₀.Closed) {flags : Flags} (asks : flags.asks k = true)
    {t t' : TypeId} (same : membersAsked e₀.store (flags.only k) t' =
      membersAsked e₀.store (flags.only k) t) :
    Parallel e₀ k tied (offerMembers flags t) (offerMembers (flags.only k) t') := by
  rw [offerMembers_eq, offerMembers_eq]
  refine .read_bind fun e e' grown grown' _ => ?_
  rw [grown.store.membersAsked_eq, grown'.store.membersAsked_eq, same, ← filter_membersAsked asks]
  refine .offerAll closed fun u hu => ?_
  have declared : u ∈ (e₀.store.type t).declaredTypes := by
    simp only [membersAsked, List.mem_append] at hu
    rcases hu with (hu | hu) | hu
    · split at hu <;> simp at hu
    · split at hu <;> simp at hu
    · split at hu
      · simpa using hu
      · simp at hu
  exact Environment.has_of_mem_declaredTypes closed declared

/-! ## Supertypes of twins -/

namespace Environment

theorem lookup_withObject (e : Environment) :
    e.withObject.recovered.lookup objectName = some e.objectId := by
  cases known : e.recovered.lookup objectName with
  | some t =>
    obtain ⟨place, same⟩ := withObject_of_known known
    rw [same, known, place]
  | none =>
    obtain ⟨place, made⟩ := withObject_of_unknown known
    rw [made, place, List.lookup_cons_self]

theorem Extends.withObject {e : Environment} (h : e₀.Extends e) : e₀.Extends e.withObject :=
  keeps_objectType e h

end Environment

/-- Only the type above all others stands above the type. -/
def TypeBinding.isUnbounded (b : TypeBinding) : Bool :=
  if b.isTypeVariable then b.bounds.isEmpty else b.superclass.isNone && b.isArray

/-- Reading the supertypes of a type may make the type above all others. -/
theorem outcome_supertypes_eq (e : Environment) (t : TypeId) :
    outcome (supertypes t) e = (.ok (e.supertypesOf t),
      if (e.store.type t).isUnbounded then e.withObject else e) := by
  have read : outcome (EnvironmentM.read Environment.store) e = (.ok e.store, e) := rfl
  have object := Environment.outcome_objectType (.refl e)
  rw [supertypes, outcome_bind_of_ok read, Environment.supertypesOf, TypeBinding.isUnbounded]
  dsimp only
  cases (e.store.type t).isTypeVariable with
  | true =>
    simp only [if_true]
    cases (e.store.type t).bounds.isEmpty with
    | true =>
      simp only [if_true]
      rw [outcome_bind_of_ok object]
      rfl
    | false => rfl
  | false =>
    simp only [Bool.false_eq_true, if_false]
    cases (e.store.type t).superclass with
    | some up => rfl
    | none =>
      cases (e.store.type t).isArray with
      | true =>
        simp only [if_true]
        rw [outcome_bind_of_ok object]
        rfl
      | false => rfl

/-- The types, missing ones included, are twins one by one. -/
abbrev TwinLists (e₀ : Environment) (tied : Prop) (e e' : Environment)
    (ts ts' : List (Option TypeId)) : Prop :=
  List.Forall₂ (Option.Rel (Twins e₀ tied e e')) ts ts'

theorem TwinLists.of_has {e e' : Environment} {ts : List (Option TypeId)}
    (known : ∀ t, some t ∈ ts → tied ∨ e₀.store.Has (.type t)) : TwinLists e₀ tied e e' ts ts := by
  rw [TwinLists, List.forall₂_same]
  intro t ht
  cases t with
  | none => exact .none
  | some t => exact .some (.kept (known t ht))

/-- A type, missing ones included, and its twin. -/
theorem rel_twins_mono {e e' e₁ e₁' : Environment} {t t' : Option TypeId}
    (h : Option.Rel (Twins e₀ tied e e') t t') (grown : e.Grows e₁) (grown' : e'.Grows e₁') :
    Option.Rel (Twins e₀ tied e₁ e₁') t t' := by
  cases h with
  | none => exact .none
  | some twins => exact .some (twins.mono grown grown')

/-- The supertypes of twins are twins, after what is made on the way. -/
theorem Twins.supertypes (closed : e₀.Closed) {e e' e₁ : Environment} {t t' : TypeId}
    (first : e₀.Extends e) (second : e₀.Extends e') (same : tied → e' = e)
    (h : Twins e₀ tied e e' t t') {ups : List (Option TypeId)}
    (run : outcome (supertypes t) e = (.ok ups, e₁)) :
    ∃ ups' e₁', outcome (JavaScope.supertypes t') e' = (.ok ups', e₁') ∧
      TwinLists e₀ tied e₁ e₁' ups ups' ∧ (tied → e₁' = e₁) := by
  by_cases ties : tied
  · have here : t' = t := by
      cases h with
      | kept => rfl
      | object unknown known known' =>
        rw [same ties, known] at known'
        exact (Option.some.inj known').symm
    rw [same ties, here]
    exact ⟨ups, e₁, run, .of_has fun _ _ => .inl ties, fun _ => rfl⟩
  · rw [outcome_supertypes_eq] at run
    cases run
    refine ⟨_, _, outcome_supertypes_eq e' t', ?_, fun t => absurd t ties⟩
    cases h with
    | kept known =>
      have has : e₀.store.Has (.type t) := known.resolve_left ties
      have apart : e₀.store.Apart e.store e'.store := ⟨closed.store, first.store, second.store⟩
      have links : ∀ (ts : List (Option TypeId)) (e₁ e₁' : Environment),
          (∀ u, some u ∈ ts → u ∈ (e.store.type t).links) → TwinLists e₀ tied e₁ e₁' ts ts :=
        fun _ _ _ inside => .of_has fun u hu => .inr (apart.has_of_link has (inside u hu))
      have object : Twins e₀ tied e.withObject e'.withObject e.objectId e'.objectId :=
        Twins.of_object closed first.withObject.toGrows second.withObject.toGrows
          e.lookup_withObject e'.lookup_withObject
      rw [Environment.supertypesOf, Environment.supertypesOf, apart.type_eq has,
        TypeBinding.isUnbounded]
      cases (e.store.type t).isTypeVariable with
      | true =>
        simp only [if_true]
        cases (e.store.type t).bounds.isEmpty with
        | true => exact .cons (.some object) .nil
        | false =>
          refine links _ _ _ fun u hu => ?_
          rw [if_neg Bool.false_ne_true] at hu
          simp [TypeBinding.links, hu]
      | false =>
        simp only [Bool.false_eq_true, if_false]
        cases superclass : (e.store.type t).superclass with
        | some up =>
          refine links _ _ _ fun u hu => ?_
          rcases List.mem_cons.1 hu with same | hu
          · simp [TypeBinding.links, superclass, Option.some.inj same]
          · simp [TypeBinding.links, hu]
        | none =>
          have interfaces : ∀ u, some u ∈ (e.store.type t).interfaces →
              u ∈ (e.store.type t).links := fun u hu => by simp [TypeBinding.links, hu]
          cases (e.store.type t).isArray with
          | true => exact .cons (.some object) (links _ _ _ interfaces)
          | false => exact links _ _ _ interfaces
    | object unknown here there =>
      have bare : ∀ {e : Environment} {t : TypeId}, (e.store.type t).IsRoot →
          e.supertypesOf t = [] := by
        intro e t root
        simp [Environment.supertypesOf, TypeBinding.isTypeVariable, TypeBinding.isArray, root.kind,
          root.superclass, root.interfaces]
      rw [bare (first.roots _ _ unknown here).2.2, bare (second.roots _ _ unknown there).2.2]
      exact .nil

/-! ## The hierarchy -/

/-- States abreast whose environments have grown from two others. -/
structure AbreastFrom (e₀ : Environment) (k : BindingKind) (tied : Prop) (e e' : Environment)
    (st st' : Searching Collection) : Prop extends Abreast e₀ k tied st st' where
  grown : e.Grows st.environment
  grown' : e'.Grows st'.environment

/-- Searches in parallel that only let the environments grow. -/
theorem Parallel.grown {search search' : SearchM Collection Bool} {e e' : Environment}
    (h : Parallel e₀ k tied search search')
    (keeps : Keeps (Searching.Within e.Grows fun _ => True) search)
    (keeps' : Keeps (Searching.Within e'.Grows fun _ => True) search') :
    Tracks (AbreastFrom e₀ k tied e e') search search' fun x x' st st' =>
      x = false ∧ x' = false ∧ AbreastFrom e₀ k tied e e' st st' := by
  intro st st' abreast x st₁ run
  obtain ⟨x', st₁', run', unstopped, unstopped', abreast₁⟩ := h st st' abreast.toAbreast x st₁ run
  have kept := keeps st ⟨abreast.grown, trivial⟩
  have kept' := keeps' st' ⟨abreast.grown', trivial⟩
  rw [run] at kept
  rw [run'] at kept'
  exact ⟨x', st₁', run', unstopped, unstopped', abreast₁, kept.1, kept'.1⟩

/-- Two searches have visited twins one by one, each of them once. -/
structure VisitedTwins (e₀ : Environment) (tied : Prop) (e e' : Environment)
    (visited visited' : List TypeId) : Prop where
  twins : List.Forall₂ (Twins e₀ tied e e') visited visited'
  distinct : visited'.Nodup

namespace VisitedTwins

variable {e e' : Environment} {visited visited' : List TypeId}

theorem nil : VisitedTwins e₀ tied e e' [] [] :=
  ⟨.nil, .nil⟩

theorem mono {e₁ e₁' : Environment} (h : VisitedTwins e₀ tied e e' visited visited')
    (grown : e.Grows e₁) (grown' : e'.Grows e₁') : VisitedTwins e₀ tied e₁ e₁' visited visited' :=
  ⟨h.twins.imp fun _ _ twins => twins.mono grown grown', h.distinct⟩

theorem cons {t t' : TypeId} (h : VisitedTwins e₀ tied e e' visited visited')
    (twins : Twins e₀ tied e e' t t') (fresh : t' ∉ visited') :
    VisitedTwins e₀ tied e e' (t :: visited) (t' :: visited') :=
  ⟨.cons twins h.twins, List.nodup_cons.2 ⟨fresh, h.distinct⟩⟩

/-- Without a tie the second search visits types of `e₀` only, and the type above all others. -/
theorem length_le (untied : ¬ tied) (h : VisitedTwins e₀ tied e e' visited visited') :
    visited'.length ≤ e₀.store.types.size + 1 := by
  let known := (Finset.range e₀.store.types.size).image TypeId.mk
  let object := (e'.recovered.lookup objectName).getD ⟨0⟩
  have places : List.Forall₂ (fun t' t => t' ∈ insert object known ∧ True) visited' visited := by
    refine h.twins.flip.imp fun t' t twins => ⟨?_, trivial⟩
    cases twins with
    | kept has =>
      have inside : t'.index < e₀.store.types.size := has.resolve_left untied
      exact Finset.mem_insert_of_mem
        (Finset.mem_image_of_mem TypeId.mk (Finset.mem_range.2 inside))
    | object _ _ there =>
      have same : object = t' := by simp [object, there]
      exact same ▸ Finset.mem_insert_self object known
  have few : visited'.toFinset.card ≤ (insert object known).card :=
    Finset.card_le_card fun t' member =>
      ((List.forall₂_and_left visited' visited).1 places).1 t' (List.mem_toFinset.1 member)
  rw [List.toFinset_card_of_nodup h.distinct] at few
  have knownFew : known.card ≤ e₀.store.types.size :=
    Finset.card_image_le.trans_eq (Finset.card_range _)
  have more := Finset.card_insert_le object known
  omega

end VisitedTwins

/-- What two searches through a hierarchy answer: neither is stopped, and they have visited twins. -/
structure VisitAbreast (e₀ : Environment) (k : BindingKind) (tied : Prop) (e e' : Environment)
    (least : Nat) (x x' : Bool × List TypeId) (st st' : Searching Collection) : Prop
    extends AbreastFrom e₀ k tied e e' st st' where
  unstopped : x.1 = false
  unstopped' : x'.1 = false
  visits : VisitedTwins e₀ tied st.environment st'.environment x.2 x'.2
  more : least ≤ x'.2.length

/-- The second search has fuel for as many types as the first one or, if they are not tied, for all
types that it may still visit. -/
def EnoughFuel (e₀ : Environment) (tied : Prop) (fuel fuel' visited' : Nat) : Prop :=
  (tied ∧ fuel ≤ fuel') ∨ (¬ tied ∧ e₀.store.types.size + 1 ≤ fuel' + visited')

/-- After one more type there is enough fuel for the types above it. -/
theorem EnoughFuel.step {e e' : Environment} {t t' : TypeId} {visited visited' : List TypeId}
    {fuel fuel' : Nat} (enough : EnoughFuel e₀ tied (fuel + 1) fuel' visited'.length)
    (visits : VisitedTwins e₀ tied e e' (t :: visited) (t' :: visited')) :
    ∃ n, fuel' = n + 1 ∧ ∀ more ≥ visited'.length + 1, EnoughFuel e₀ tied fuel n more := by
  rcases enough with ⟨ties, le⟩ | ⟨untied, le⟩
  · exact ⟨fuel' - 1, by omega, fun more _ => .inl ⟨ties, by omega⟩⟩
  · have few := visits.length_le untied
    rw [List.length_cons] at few
    exact ⟨fuel' - 1, by omega, fun more _ => .inr ⟨untied, by omega⟩⟩

/-- Reading the supertypes of twins. -/
theorem tracks_supertypes (closed : e₀.Closed) {e e' : Environment} {t t' : TypeId}
    (twins : Twins e₀ tied e e' t t') :
    Tracks (AbreastFrom e₀ k tied e e') (SearchM.lift (supertypes t)) (SearchM.lift (supertypes t'))
      fun ups ups' st st' => AbreastFrom e₀ k tied e e' st st' ∧
        TwinLists e₀ tied st.environment st'.environment ups ups' := by
  rintro ⟨e₁, r⟩ ⟨e₁', r'⟩ abreast ups st₂ run
  obtain ⟨e₂, above, rfl⟩ := SearchM.outcome_lift_eq_ok.1 run
  obtain ⟨ups', e₂', above', twins', same⟩ :=
    (twins.mono abreast.grown abreast.grown').supertypes closed abreast.first abreast.second
      abreast.same above
  have kept : ∀ {I : Environment → Prop} [Environment.Lasts I], I e₁ → I e₂ :=
    fun h => (keeps_supertypes t).ensures e₁ h ups _ above
  have kept' : ∀ {I : Environment → Prop} [Environment.Lasts I], I e₁' → I e₂' :=
    fun h => (keeps_supertypes t').ensures e₁' h ups' _ above'
  refine ⟨ups', ⟨e₂', r'⟩, SearchM.outcome_lift_eq_ok.2 ⟨e₂', above', rfl⟩, ?_, twins'⟩
  exact ⟨abreast.withEnvironments (kept abreast.first) (kept' abreast.second) same,
    kept abreast.grown, kept' abreast.grown'⟩

section Visits

variable {visit visit' : Option TypeId → List TypeId → SearchM Collection (Bool × List TypeId)}
  {least : Nat}
  (each : ∀ e e' t t' visited visited', Option.Rel (Twins e₀ tied e e') t t' →
    VisitedTwins e₀ tied e e' visited visited' → least ≤ visited'.length →
      Tracks (AbreastFrom e₀ k tied e e') (visit t visited) (visit' t' visited')
        (VisitAbreast e₀ k tied e e' least))

include each

/-- Visiting twins in turn. -/
theorem tracks_visitEach {e e' : Environment} {ts ts' : List (Option TypeId)}
    (twins : TwinLists e₀ tied e e' ts ts') {visited visited' : List TypeId}
    (visits : VisitedTwins e₀ tied e e' visited visited') (more : least ≤ visited'.length) :
    Tracks (AbreastFrom e₀ k tied e e') (visitEach visit ts visited) (visitEach visit' ts' visited')
      (VisitAbreast e₀ k tied e e' least) := by
  induction ts generalizing ts' e e' visited visited' with
  | nil =>
    cases twins
    exact .pure fun st st' abreast =>
      ⟨abreast, rfl, rfl, visits.mono abreast.grown abreast.grown', more⟩
  | cons t rest ih =>
    cases twins with
    | cons twin others =>
    refine Tracks.bind (each e e' _ _ _ _ twin visits more) fun x x' => Tracks.from_states ?_
    rintro st st' ⟨abreast, unstopped, unstopped', visits₁, more₁⟩
    obtain ⟨_, found⟩ := x
    obtain ⟨_, found'⟩ := x'
    cases unstopped
    cases unstopped'
    have others' : TwinLists e₀ tied st.environment st'.environment rest _ :=
      others.imp fun _ _ twins => rel_twins_mono twins abreast.grown abreast.grown'
    refine (ih others' visits₁ more₁).weaken ?_ ?_
    · rintro _ _ ⟨rfl, rfl⟩
      exact ⟨abreast.toAbreast, .refl _, .refl _⟩
    · rintro y y' st₁ st₁' visit
      exact { visit with
        grown := abreast.grown.trans visit.grown
        grown' := abreast.grown'.trans visit.grown' }

/-- The members of twins that were just visited, and what is above them. -/
theorem tracks_visitNew (closed : e₀.Closed) {flags : Flags} (asks : flags.asks k = true)
    {e e' : Environment} {t t' : TypeId} (first : e₀.Extends e) (second : e₀.Extends e')
    (twins : Twins e₀ tied e e' t t') {visited visited' : List TypeId}
    (visits : VisitedTwins e₀ tied e e' visited visited') (more : least ≤ visited'.length) :
    Tracks (AbreastFrom e₀ k tied e e')
      (do
        if ← offerMembers flags t then return (true, visited)
        let ups ← SearchM.lift (supertypes t)
        visitEach visit ups visited)
      (do
        if ← offerMembers (flags.only k) t' then return (true, visited')
        let ups ← SearchM.lift (supertypes t')
        visitEach visit' ups visited')
      (VisitAbreast e₀ k tied e e' least) := by
  have members : Parallel e₀ k tied (offerMembers flags t) (offerMembers (flags.only k) t') :=
    parallel_offerMembers closed asks (twins.membersAsked_eq first second (flags.only k))
  refine Tracks.bind (members.grown (keeps_offerMembers keeps_true flags t)
    (keeps_offerMembers keeps_true (flags.only k) t')) fun x x' => Tracks.from_states ?_
  rintro st st' ⟨rfl, rfl, abreast⟩
  refine Tracks.bind ((tracks_supertypes closed twins (k := k)).weaken ?_ fun _ _ _ _ h => h)
    fun ups ups' => Tracks.from_states ?_
  · rintro _ _ ⟨rfl, rfl⟩
    exact abreast
  · rintro st₁ st₁' ⟨abreast₁, above⟩
    refine (tracks_visitEach each above (visits.mono abreast₁.grown abreast₁.grown') more).weaken ?_ ?_
    · rintro _ _ ⟨rfl, rfl⟩
      exact ⟨abreast₁.toAbreast, .refl _, .refl _⟩
    · rintro y y' st₂ st₂' visit
      exact { visit with
        grown := abreast₁.grown.trans visit.grown
        grown' := abreast₁.grown'.trans visit.grown' }

end Visits

/-- The search through a hierarchy for several kinds, and the one for one of them. -/
theorem tracks_collectInheritedWith (closed : e₀.Closed) {flags : Flags} (asks : flags.asks k = true)
    {fuel fuel' : Nat} {e e' : Environment} {t t' : Option TypeId} {visited visited' : List TypeId}
    (twins : Option.Rel (Twins e₀ tied e e') t t') (visits : VisitedTwins e₀ tied e e' visited visited')
    (enough : EnoughFuel e₀ tied fuel fuel' visited'.length) :
    Tracks (AbreastFrom e₀ k tied e e') (collectInheritedWith flags fuel t visited)
      (collectInheritedWith (flags.only k) fuel' t' visited')
      (VisitAbreast e₀ k tied e e' visited'.length) := by
  induction fuel using Nat.strong_induction_on
    generalizing fuel' e e' t t' visited visited' with
  | h fuel ih =>
  rintro ⟨e₁, r⟩ ⟨e₁', r'⟩ abreast x st₁ run
  cases twins with
  | none =>
    rw [collectInheritedWith] at run
    obtain ⟨_, missing, -⟩ := outcome_ofExcept_bind_eq_ok.1 run
    cases missing
  | @some t t' twins =>
    have visits := visits.mono abreast.grown abreast.grown'
    have declared := (twins.mono abreast.grown abreast.grown').declarationOfType abreast.first
      abreast.second abreast.same closed
    have known := declared.mem_iff abreast.first abreast.second abreast.same visits.twins
    rw [outcome_collectInheritedWith (.refl e₁)] at run
    rw [outcome_collectInheritedWith (.refl e₁')]
    by_cases seen : e₁.store.declarationOfType t ∈ visited
    · rw [if_pos seen] at run
      cases run
      exact ⟨_, _, if_pos (known.1 seen), abreast, rfl, rfl, visits, Nat.le_refl _⟩
    · rw [if_neg seen] at run
      rw [if_neg (mt known.2 seen)]
      have visits₁ := visits.cons declared (mt known.2 seen)
      cases fuel with
      | zero => cases run
      | succ fuel =>
        obtain ⟨fuel', rfl, enough'⟩ := enough.step visits₁
        have each : ∀ e e' t t' visited₁ visited₁', Option.Rel (Twins e₀ tied e e') t t' →
            VisitedTwins e₀ tied e e' visited₁ visited₁' → visited'.length + 1 ≤ visited₁'.length →
              Tracks (AbreastFrom e₀ k tied e e') (collectInheritedWith flags fuel t visited₁)
                (collectInheritedWith (flags.only k) fuel' t' visited₁')
                (VisitAbreast e₀ k tied e e' (visited'.length + 1)) := by
          intro e e' t t' visited₁ visited₁' twins visits more
          refine (ih fuel (Nat.lt_succ_self _) twins visits (enough' _ more)).weaken
            (fun _ _ h => h) fun _ _ _ _ visit => ?_
          exact { visit with more := Nat.le_trans more visit.more }
        obtain ⟨x', st₁', run', visit⟩ := tracks_visitNew each closed asks abreast.first abreast.second
          declared visits₁ (Nat.le_refl _) _ _ ⟨abreast.toAbreast, .refl e₁, .refl e₁'⟩ x st₁ run
        exact ⟨x', st₁', run', { visit with
          grown := abreast.grown.trans visit.grown
          grown' := abreast.grown'.trans visit.grown'
          more := Nat.le_of_succ_le visit.more }⟩

/-- The members of twins and of their supertypes. -/
theorem tracks_collectInherited (closed : e₀.Closed) {flags : Flags} (asks : flags.asks k = true)
    {e e' : Environment} {t t' : TypeId} {visited visited' : List TypeId}
    (twins : Twins e₀ tied e e' t t') (visits : VisitedTwins e₀ tied e e' visited visited') :
    Tracks (AbreastFrom e₀ k tied e e') (collectInherited flags t visited)
      (collectInherited (flags.only k) t' visited') (VisitAbreast e₀ k tied e e' visited'.length) := by
  intro st st' abreast
  have size := abreast.second.store.size
  have enough : EnoughFuel e₀ tied (st.environment.store.types.size + 2)
      (st'.environment.store.types.size + 2) visited'.length := by
    by_cases ties : tied
    · exact .inl ⟨ties, by rw [abreast.same ties]⟩
    · exact .inr ⟨ties, by omega⟩
  rw [collectInherited, collectInherited, SearchM.outcome_read_bind, SearchM.outcome_read_bind]
  exact tracks_collectInheritedWith closed asks (.some twins) visits enough st st' abreast

end JavaScope
