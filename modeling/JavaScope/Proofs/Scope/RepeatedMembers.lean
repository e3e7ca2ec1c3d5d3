import JavaScope.Proofs.Environment.RepeatedTypes
import JavaScope.Proofs.Scope.Growth
import JavaScope.Proofs.Scope.Levels
import JavaScope.Proofs.Scope.Requests

/-!
# Members that are searched for again

Nothing is added to the types that a search comes to, so a search that has answered comes to the same
types again and answers the same, also where it has more fuel. The same holds of the searches that
offer declarations to a collection.
-/

namespace JavaScope

open Environment EnvironmentM Scope

variable {e e₂ : Environment} {t t' : TypeId}

/-! ## Answers of searches -/

/-- Both answers are the same binding, if any. -/
def SameBinding (b b' : Option BindingId) (e _e₂ : Environment) : Prop :=
  b' = b ∧ ∀ u, b = some (.type u) → e.store.Has (.type u)

protected theorem SameBinding.none : SameBinding none none e e₂ :=
  ⟨rfl, by simp⟩

/-- Both answers are the same list of types, of which some may be missing. -/
def SameTypes (ts ts' : List (Option TypeId)) (e _e₂ : Environment) : Prop :=
  ts' = ts ∧ ∀ u, some u ∈ ts → e.store.Has (.type u)

/-- Both answers are equal. -/
def SameAnswer {α : Type} (x x' : α) (_e _e₂ : Environment) : Prop :=
  x' = x

/-- Whether a member fits does not change while a store grows. -/
def IsLasting (fits : Store → BindingId → Bool) : Prop :=
  ∀ s s', s.Grows s' → fits s' = fits s

/-! ## Supertypes -/

instance growing_supertypes (t : TypeId) : Growing (supertypes t) :=
  .of_keeps fun _ => keeps_supertypes t

theorem repeats_object_cons (rest : List (Option TypeId))
    (has : ∀ u, some u ∈ rest → e.store.Has (.type u)) :
    Repeats e e₂ (do return some (← objectType) :: rest) (do return some (← objectType) :: rest)
      SameTypes := by
  have : Growing objectType := growing_recoveredType objectName
  refine Repeats.bind (fun _ => inferInstance) (repeats_recoveredType objectName) ?_
  rintro u _ e₁ e₃ grown - - ⟨rfl, there⟩
  refine .pure fun _ => ⟨rfl, fun v member => ?_⟩
  rcases List.mem_cons.1 member with heq | member
  · exact Option.some.inj heq ▸ there
  · exact grown.store.has (has v member)

theorem repeats_supertypes (has : e.store.Has (.type t)) :
    Repeats e e₂ (supertypes t) (supertypes t) SameTypes := by
  refine .of_agrees fun (agrees : e.Agrees e₂) => .read_bind ?_
  have link := agrees.closed.store.types t
  have interfaces : ∀ u, some u ∈ (e.store.type t).interfaces → e.store.Has (.type u) :=
    fun u member => link u (by simp [TypeBinding.links, member])
  rw [agrees.type_eq has]
  refine .ite (fun _ => .ite (fun _ => repeats_object_cons [] (by simp)) fun _ => ?_) fun _ => ?_
  · exact .pure fun _ => ⟨rfl, fun u member => link u (by simp [TypeBinding.links, member])⟩
  · split
    · next up above =>
      refine .pure fun _ => ⟨rfl, fun u member => ?_⟩
      rcases List.mem_cons.1 member with heq | member
      · exact link u (by simp [TypeBinding.links, above, Option.some.inj heq])
      · exact interfaces u member
    · refine .ite (fun _ => repeats_object_cons _ interfaces) fun _ => .pure fun _ => ⟨rfl, interfaces⟩

/-! ## The first member, breadth first -/

theorem nextUnvisited_eq (agrees : e.Agrees e₂) (visited : List TypeId)
    {pending : List (Option TypeId)} (has : ∀ u, some u ∈ pending → e.store.Has (.type u)) :
    nextUnvisited e₂.store visited pending = nextUnvisited e.store visited pending := by
  induction pending with
  | nil => rfl
  | cons t rest ih =>
    cases t with
    | none => rfl
    | some t =>
      have same := agrees.apart.declarationOfType_eq (has t List.mem_cons_self)
      have others := ih fun u member => has u (List.mem_cons_of_mem _ member)
      show (if _ then _ else _) = (if _ then _ else _)
      rw [same, others]

theorem has_of_nextUnvisited (agrees : e.Agrees e₂) {visited : List TypeId}
    {pending rest : List (Option TypeId)} (has : ∀ u, some u ∈ pending → e.store.Has (.type u))
    (next : nextUnvisited e.store visited pending = .ok (some (t, rest))) :
    e.store.Has (.type t) ∧ ∀ u, some u ∈ rest → e.store.Has (.type u) := by
  induction pending with
  | nil => cases next
  | cons t' others ih =>
    have has' : ∀ u, some u ∈ others → e.store.Has (.type u) :=
      fun u member => has u (List.mem_cons_of_mem _ member)
    cases t' with
    | none => cases next
    | some t' =>
      change (if _ then _ else _) = _ at next
      split at next
      · exact ih has' next
      · cases next
        exact ⟨agrees.apart.has_declarationOfType (has t' List.mem_cons_self), has'⟩

theorem find?_membersOf_eq (agrees : e.Agrees e₂) {fits : Store → BindingId → Bool}
    (lasting : IsLasting fits) (has : e.store.Has (.type t)) :
    (membersOf e₂.store t).find? (fits e₂.store) = (membersOf e.store t).find? (fits e.store) := by
  rw [lasting _ _ agrees.grown.store, membersOf, membersOf, agrees.type_eq has]

theorem has_of_mem_membersOf (closed : e.Closed) {u : TypeId}
    (member : .type u ∈ membersOf e.store t) : e.store.Has (.type u) := by
  have declared : u ∈ (e.store.type t).declaredTypes := by simpa [membersOf] using member
  exact has_of_mem_declaredTypes closed declared

instance growing_findMemberWith (fits : Store → BindingId → Bool) (fuel : Nat)
    (pending : List (Option TypeId)) (visited : List TypeId) :
    Growing (findMemberWith fits fuel pending visited) :=
  .of_keeps fun _ => keeps_findMemberWith fits fuel pending visited

instance growing_findMember (t : TypeId) (fits : Store → BindingId → Bool) :
    Growing (findMember t fits) :=
  .of_keeps fun _ => keeps_findMember t fits

instance growing_findMemberOutwards (fits : Store → BindingId → Bool) (fuel : Nat)
    (t : Option TypeId) : Growing (findMemberOutwards fits fuel t) :=
  .of_keeps fun _ => keeps_findMemberOutwards fits fuel t

/-- A search that has found its way with some fuel finds it with more. -/
theorem repeats_findMemberWith {fits : Store → BindingId → Bool} (lasting : IsLasting fits)
    {fuel fuel' : Nat} (enough : fuel ≤ fuel') {pending : List (Option TypeId)}
    (has : ∀ u, some u ∈ pending → e.store.Has (.type u)) (visited : List TypeId) :
    Repeats e e₂ (findMemberWith fits fuel pending visited)
      (findMemberWith fits fuel' pending visited) SameBinding := by
  -- the fuel depends on the size of the store, which may have grown before the second run
  induction fuel generalizing fuel' e e₂ pending visited with
  | zero =>
    refine .of_agrees fun (agrees : e.Agrees e₂) => ?_
    unfold findMemberWith
    refine .read_bind ?_
    rw [nextUnvisited_eq agrees visited has]
    refine .ofExcept_bind fun next told => ⟨next, told, ?_⟩
    cases next with
    | none => exact .pure fun _ => .none
    | some next => exact .throw
  | succ fuel ih =>
    obtain ⟨fuel', rfl⟩ : ∃ more, fuel' = more + 1 := ⟨fuel' - 1, by omega⟩
    refine .of_agrees fun (agrees : e.Agrees e₂) => ?_
    unfold findMemberWith
    refine .read_bind ?_
    rw [nextUnvisited_eq agrees visited has]
    refine .ofExcept_bind fun next told => ⟨next, told, ?_⟩
    cases next with
    | none => exact .pure fun _ => .none
    | some next =>
      obtain ⟨t, rest⟩ := next
      obtain ⟨there, others⟩ := has_of_nextUnvisited agrees has told
      dsimp only
      rw [find?_membersOf_eq agrees lasting there]
      split
      · next member found =>
        refine .pure fun _ => ⟨rfl, ?_⟩
        rintro u ⟨⟩
        exact has_of_mem_membersOf agrees.closed (List.mem_of_find?_eq_some found)
      · refine (repeats_supertypes there).bind (fun _ => inferInstance) ?_
        rintro ups _ e₁ e₃ grown - agrees ⟨rfl, above⟩
        refine ih (by omega) (fun u member => ?_) _
        rcases List.mem_append.1 member with member | member
        · exact grown.store.has (others u member)
        · exact above u member

theorem repeats_findMember {fits : Store → BindingId → Bool} (lasting : IsLasting fits)
    (has : e.store.Has (.type t)) :
    Repeats e e₂ (findMember t fits) (findMember t fits) SameBinding := by
  refine .of_agrees fun (agrees : e.Agrees e₂) => .read_bind ?_
  have size := agrees.grown.store.size
  refine repeats_findMemberWith lasting (by omega) (fun u member => ?_) []
  exact Option.some.inj (List.mem_singleton.1 member) ▸ has

/-- A wildcard has no members, and no supertypes. -/
theorem outcome_findMember_of_isWildcard {text : String} (wildcard : (e.store.type t).IsWildcard text)
    (fits : Store → BindingId → Bool) : outcome (findMember t fits) e = (.ok none, e) := by
  obtain ⟨bounds, binding⟩ := wildcard
  have next : nextUnvisited e.store [] [some t] = .ok (some (t, [])) := by
    show Except.ok (some (e.store.declarationOfType t, [])) = _
    rw [Store.declarationOfType, binding]
    rfl
  have members : membersOf e.store t = [] := by
    rw [membersOf, binding]
    rfl
  have read : outcome (EnvironmentM.read Environment.store) e = (.ok e.store, e) := rfl
  have above : outcome (supertypes t) e = (.ok [], e) := by
    rw [supertypes, outcome_bind_of_ok read, binding]
    rfl
  have last : ∀ fuel, outcome (findMemberWith fits fuel [] [t]) e = (.ok none, e) := by
    intro fuel
    unfold findMemberWith
    rfl
  rw [findMember, outcome_bind_of_ok read, findMemberWith, outcome_bind_of_ok read, next]
  simp only [outcome_bind, outcome_ofExcept, members, List.find?_nil, above, List.nil_append, last]

/-- Types that stand for the same have the same members. -/
theorem repeats_findMember_of_alike {fits : Store → BindingId → Bool} (lasting : IsLasting fits)
    (alike : Alike e e₂ t t') :
    Repeats e e₂ (findMember t fits) (findMember t' fits) SameBinding := by
  cases alike with
  | same has => exact repeats_findMember lasting has
  | wildcard one other =>
    refine .of_answer (outcome_findMember_of_isWildcard one fits) fun closed grown => ?_
    exact ⟨closed, none, e₂, outcome_findMember_of_isWildcard other fits, .refl e₂, .none⟩

theorem repeats_findMemberOutwards {fits : Store → BindingId → Bool} (lasting : IsLasting fits)
    {fuel fuel' : Nat} (enough : fuel ≤ fuel') {o : Option TypeId}
    (has : ∀ u ∈ o, e.store.Has (.type u)) :
    Repeats e e₂ (findMemberOutwards fits fuel o) (findMemberOutwards fits fuel' o) SameBinding := by
  induction fuel generalizing fuel' e e₂ o with
  | zero =>
    cases o with
    | none => cases fuel' <;> exact .pure fun _ => .none
    | some t => exact .throw
  | succ fuel ih =>
    obtain ⟨fuel', rfl⟩ : ∃ more, fuel' = more + 1 := ⟨fuel' - 1, by omega⟩
    cases o with
    | none => exact .pure fun _ => .none
    | some t =>
      refine (repeats_findMember lasting (has t rfl)).bind ?_ ?_
      · rintro (_ | member)
        · exact .of_keeps fun _ => (keeps_read _).bind fun _ => keeps_findMemberOutwards _ _ _
        · exact inferInstance
      · rintro (_ | member) _ e₁ e₃ grown - (agrees : e₁.Agrees e₃) ⟨rfl, known⟩
        · have there := grown.store.has (has t rfl)
          refine .read_bind ?_
          rw [agrees.type_eq there]
          refine ih (by omega) fun u owner => agrees.closed.store.types t u ?_
          simp [TypeBinding.links, Option.mem_def.1 owner]
        · exact .pure fun _ => ⟨rfl, known⟩

/-! ## Searches that offer to a collection -/

/-- Nothing that a collection has taken dangles. -/
instance : HasEnvironment (Searching Collection) where
  environment := Searching.environment
  exchange st e := { st with environment := e }
  IsStored st := st.environment.Closed ∧
    ∀ u, .type u ∈ st.request.bindings → st.environment.store.Has (.type u)
  closed _ h := h.1

section Search

variable {α β : Type} {st : Searching Collection} {Q : α → α → Environment → Environment → Prop}

instance growing_lift {a : EnvironmentM α} [Growing a] : Growing (SearchM.lift (σ := Collection) a) :=
  ⟨fun st => Growing.grows (a := a) st.environment⟩

instance growing_read (f : Environment → α) : Growing (SearchM.read (σ := Collection) f) :=
  ⟨fun _ => .refl _⟩

instance growing_offer (candidate : Option BindingId) :
    Growing (SearchM.offer (σ := Collection) candidate) :=
  ⟨fun _ => .refl _⟩

theorem Repeats.lift {a a' : EnvironmentM α} [Growing a] (h : Repeats st.environment e₂ a a' Q) :
    Repeats st e₂ (SearchM.lift a) (SearchM.lift a') Q := by
  rintro ⟨closed, taken⟩ grown
  obtain ⟨closed', again⟩ := h closed grown
  have grows := Growing.grows (a := a) st.environment
  refine ⟨⟨closed', fun u member => grows.store.has (taken u member)⟩, fun x st' run => ?_⟩
  obtain ⟨e', acted, rfl⟩ := SearchM.outcome_lift_eq_ok.1 run
  obtain ⟨x', e₂', acted', grown', related⟩ := again x e' acted
  exact ⟨x', e₂', SearchM.outcome_lift_eq_ok.2 ⟨e₂', acted', rfl⟩, grown', related⟩

theorem Repeats.searchRead_bind {g : Environment → α} {f f' : α → SearchM Collection β}
    {R : β → β → Environment → Environment → Prop}
    (h : Repeats st e₂ (f (g st.environment)) (f' (g e₂)) R) :
    Repeats st e₂ (SearchM.read g >>= f) (SearchM.read g >>= f') R :=
  h

/-- A candidate keeps its signature. -/
theorem repeats_offer {candidate : Option BindingId}
    (has : ∀ u, candidate = some (.type u) → st.environment.store.Has (.type u)) :
    Repeats st e₂ (SearchM.offer candidate) (SearchM.offer candidate) SameAnswer := by
  cases candidate with
  | none => exact .of_answer rfl fun stored _ => ⟨stored, false, e₂, rfl, .refl e₂, rfl⟩
  | some b =>
    have known : ∀ u, b = .type u → st.environment.store.Has (.type u) :=
      fun u heq => has u (congrArg some heq)
    rintro ⟨closed, taken⟩ grown
    have same := Store.signature_eq closed.store (.refl _) grown.store known
    have environment' : (exchange st e₂).environment = e₂ := rfl
    unfold IsStored
    rw [outcome_offer_collection, outcome_offer_collection, environment', ← same]
    cases signed : st.environment.store.signature b with
    | error f => exact ⟨⟨closed, taken⟩, nofun⟩
    | ok y =>
      refine ⟨⟨closed, fun u member => ?_⟩, ?_⟩
      · dsimp only at member
        split at member
        · exact taken u member
        · rcases List.mem_append.1 member with member | member
          · exact taken u member
          · exact known u (List.mem_singleton.1 member).symm
      · rintro _ _ ⟨⟩
        exact ⟨false, e₂, rfl, .refl e₂, rfl⟩

/-- A search lets the environment grow, and made again from an environment that has grown from `e₀` it
answers the same. -/
structure IsRepeatedFrom (e₀ : Environment) (search : SearchM Collection Bool) : Prop where
  growing : Growing search
  repeats : ∀ st e₂, e₀.Grows st.environment → Repeats st e₂ search search SameAnswer

namespace IsRepeatedFrom

variable {e₀ : Environment}

theorem composes : LocalWalk.Composes (IsRepeatedFrom e₀) where
  pure := ⟨inferInstance, fun _ _ _ => .pure fun _ => rfl⟩
  orElse {a b} ha hb := by
    have := ha.growing
    have := hb.growing
    have rest : ∀ stopped : Bool, Growing (if stopped then pure true else b) := fun _ => inferInstance
    refine ⟨inferInstance, fun st e₂ grown => ?_⟩
    refine (ha.repeats st e₂ grown).bind rest ?_
    rintro stopped _ st₁ e₃ grown' - - rfl
    exact .ite (fun _ => .pure fun _ => rfl) fun _ => hb.repeats st₁ e₃ (grown.trans grown')

theorem offer {candidate : Option BindingId}
    (has : ∀ u, candidate = some (.type u) → e₀.store.Has (.type u)) :
    IsRepeatedFrom e₀ (SearchM.offer candidate) where
  growing := inferInstance
  repeats _ _ grown := repeats_offer fun u heq => grown.store.has (has u heq)

theorem offerAll {bindings : List BindingId}
    (has : ∀ u, .type u ∈ bindings → e₀.store.Has (.type u)) :
    IsRepeatedFrom e₀ (SearchM.offerAll bindings) := by
  refine composes.anyM fun b member => offer ?_
  rintro u ⟨⟩
  exact has u member

end IsRepeatedFrom

/-! ### Members of supertypes -/

theorem Growing.of_within {a : SearchM Collection α}
    (h : ∀ e : Environment, Keeps (Searching.Within e.Grows fun _ => True) a) : Growing a :=
  ⟨fun st => (h st.environment st ⟨.refl _, trivial⟩).1⟩

instance growing_offerAll (bindings : List BindingId) :
    Growing (SearchM.offerAll (σ := Collection) bindings) :=
  .of_within fun _ => keeps_offerAll keeps_true bindings

instance growing_offerMembers (flags : Flags) (t : TypeId) :
    Growing (offerMembers (σ := Collection) flags t) :=
  .of_within fun _ => keeps_offerMembers keeps_true flags t

instance growing_collectInherited (flags : Flags) (t : TypeId) (visited : List TypeId) :
    Growing (collectInherited (σ := Collection) flags t visited) :=
  .of_within fun _ => keeps_collectInherited keeps_true flags t visited

instance growing_collectInheritedWith (flags : Flags) (fuel : Nat) (o : Option TypeId)
    (visited : List TypeId) :
    Growing (collectInheritedWith (σ := Collection) flags fuel o visited) :=
  .of_within fun _ => (hasCourse_collectInheritedWith (MayOffer.anything _) keeps_supertypes flags
    fuel o visited).keeps keeps_true

theorem repeats_offerAll {bindings : List BindingId}
    (has : ∀ u, .type u ∈ bindings → st.environment.store.Has (.type u)) :
    Repeats st e₂ (SearchM.offerAll bindings) (SearchM.offerAll bindings) SameAnswer :=
  (IsRepeatedFrom.offerAll has).repeats st e₂ (.refl _)

theorem repeats_offerMembers (flags : Flags) (has : st.environment.store.Has (.type t)) :
    Repeats st e₂ (offerMembers flags t) (offerMembers flags t) SameAnswer := by
  refine .of_agrees fun (agrees : st.environment.Agrees e₂) => .searchRead_bind ?_
  rw [agrees.type_eq has]
  simp only [agrees.grown.store.method_eq]
  refine repeats_offerAll fun u member => ?_
  have declared : u ∈ (st.environment.store.type t).declaredTypes := by
    simp only [List.mem_append] at member
    rcases member with (member | member) | member
    · split at member <;> simp at member
    · split at member <;> simp at member
    · split at member
      · simpa using member
      · cases member
  exact has_of_mem_declaredTypes agrees.closed declared

instance growing_visitEach
    {visit : Option TypeId → List TypeId → SearchM Collection (Bool × List TypeId)}
    [∀ o visited, Growing (visit o visited)] (types : List (Option TypeId)) (visited : List TypeId) :
    Growing (visitEach visit types visited) := by
  induction types generalizing visited with
  | nil => exact inferInstanceAs (Growing (pure _))
  | cons o rest ih =>
    exact Growing.bind (visit o visited) fun found =>
      if found.1 then pure (true, found.2) else visitEach visit rest found.2

theorem repeats_visitEach
    {visit visit' : Option TypeId → List TypeId → SearchM Collection (Bool × List TypeId)}
    [∀ o visited, Growing (visit o visited)] {types : List (Option TypeId)}
    (h : ∀ o ∈ types, ∀ visited st₁ e₃, st.environment.Grows st₁.environment →
      Repeats st₁ e₃ (visit o visited) (visit' o visited) SameAnswer) (visited : List TypeId) :
    Repeats st e₂ (visitEach visit types visited) (visitEach visit' types visited) SameAnswer := by
  induction types generalizing st e₂ visited with
  | nil => exact .pure fun _ => rfl
  | cons o rest ih =>
    refine (h o List.mem_cons_self visited st e₂ (.refl _)).bind (fun found => ?_) ?_
    · exact Growing.ite (pure (true, found.2)) (visitEach visit rest found.2)
    · rintro ⟨stopped, visited⟩ _ st₁ e₃ grown - - rfl
      refine .ite (fun _ => .pure fun _ => rfl) fun _ => ih (fun o member visited st₂ e₄ grown' => ?_) _
      exact h o (List.mem_cons_of_mem _ member) visited st₂ e₄ (grown.trans grown')

/-- The members that were offered are offered again, also with more fuel. -/
theorem repeats_collectInheritedWith (flags : Flags) {fuel fuel' : Nat} (enough : fuel ≤ fuel')
    {o : Option TypeId} (has : ∀ u ∈ o, st.environment.store.Has (.type u)) (visited : List TypeId) :
    Repeats st e₂ (collectInheritedWith flags fuel o visited)
      (collectInheritedWith flags fuel' o visited) SameAnswer := by
  induction fuel generalizing fuel' st e₂ o visited with
  | zero =>
    refine .of_agrees fun (agrees : st.environment.Agrees e₂) => ?_
    unfold collectInheritedWith
    refine .ofExcept_bind fun t there => ⟨t, there, .searchRead_bind ?_⟩
    rw [agrees.apart.declarationOfType_eq (has t (needed_eq_ok.1 there))]
    exact .ite (fun _ => .pure fun _ => rfl) fun _ => .throw
  | succ fuel ih =>
    obtain ⟨fuel', rfl⟩ : ∃ more, fuel' = more + 1 := ⟨fuel' - 1, by omega⟩
    refine .of_agrees fun (agrees : st.environment.Agrees e₂) => ?_
    unfold collectInheritedWith
    refine .ofExcept_bind fun t there => ⟨t, there, .searchRead_bind ?_⟩
    rw [agrees.apart.declarationOfType_eq (has t (needed_eq_ok.1 there))]
    have declaration := agrees.apart.has_declarationOfType (has t (needed_eq_ok.1 there))
    refine .ite (fun _ => .pure fun _ => rfl) fun _ => ?_
    refine (repeats_offerMembers flags declaration).bind (fun _ => inferInstance) ?_
    rintro stopped _ st₁ e₃ grown - - rfl
    refine .ite (fun _ => .pure fun _ => rfl) fun _ => ?_
    have above : Repeats st₁.environment e₃ (supertypes _) (supertypes _) SameTypes :=
      repeats_supertypes (grown.store.has declaration)
    refine above.lift.bind (fun _ => inferInstance) ?_
    rintro ups _ st₂ e₄ - - - ⟨rfl, above⟩
    refine repeats_visitEach (fun o member visited st₃ e₅ grown' => ?_) _
    refine ih (by omega) (fun u heq => grown'.store.has (above u ?_)) visited
    exact Option.mem_def.1 heq ▸ member

theorem repeats_collectInherited (flags : Flags) (has : st.environment.store.Has (.type t))
    (visited : List TypeId) :
    Repeats st e₂ (collectInherited flags t visited) (collectInherited flags t visited)
      SameAnswer := by
  refine .of_agrees fun (agrees : st.environment.Agrees e₂) => .searchRead_bind ?_
  have size := agrees.grown.store.size
  refine repeats_collectInheritedWith flags (by omega) ?_ visited
  rintro _ ⟨⟩
  exact has

end Search

end JavaScope
