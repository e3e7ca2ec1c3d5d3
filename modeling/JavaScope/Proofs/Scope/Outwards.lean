import JavaScope.Proofs.Environment.Closed
import JavaScope.Proofs.Scope.Growth
import JavaScope.Proofs.Scope.Requests

/-!
# The search outwards

The search through the enclosing types goes on after a stop among the members of a type, so it has
no course. A search that ends with every stop has one. For a collection, which never stops, the two
are the same; for the search for one declaration they differ exactly where it overlooks a member that
hides the declaration and finds the declaration further out.
-/

namespace JavaScope

/-! ## What may be offered -/

namespace Environment

theorem declares_enclosingType {e : Environment} {n : Node} {t : TypeId}
    (h : e.enclosingType n = some t) : e.Declares t := by
  rw [enclosingType] at h
  split at h
  · cases h
  · split at h
    · exact .inr (.inl (List.mem_of_mem_head? h))
    · obtain ⟨b, declared, type⟩ := Option.bind_eq_some_iff.1 h
      cases b with
      | type u =>
        cases type
        exact .inl (List.mem_map_of_mem (mem_of_declaredAt declared))
      | «variable» v => cases type
      | method m => cases type

end Environment

variable {c : Context} {e₀ : Environment}

/-- What a query offers is declared in the built environment. -/
theorem mayOffer_from (ready : e₀.Ready c) : MayOffer e₀.Grows (Offer.From e₀.store) where
  declared e e' grown grown' n := by
    refine ⟨grown'.store, fun t ht => ready.plain t (.inl ?_)⟩
    rw [grown.bindingOf] at ht
    obtain ⟨key, filed⟩ := Environment.exists_mem_of_bindingOf ht
    exact List.mem_map_of_mem filed
  members e e' grown grown' t b hb := by
    refine ⟨grown'.store, fun u hu => ready.plain u (.inr (.inr ⟨t, .inl ?_⟩))⟩
    cases hu
    rw [membersOf, (grown.store.declares_eq t).2.2.1] at hb
    simpa using hb

/-! ## One step outwards -/

section Searches

variable {σ : Type} [Request σ] (typeOf : Typing) (flags : Flags)

/-- Offers what lies between the members of a type and the type around it: the local declarations
around a local type, and the top-level types around the outermost type. Answers whether the request
stopped, and with the type around. -/
def stepOutFrom (e : Environment) (t : TypeId) : SearchM σ (Bool × Option TypeId) := do
  let b := e.store.type t
  if b.isLocal then
    match b.node, b.node.bind Node.parent with
    | some n, some outer =>
      if ← collectAroundLocalType typeOf flags n outer b.isAnonymous then return (true, none)
      return (false, (← get).environment.enclosingType outer)
    | _, _ => return (false, none)
  else match b.declaringClass with
    | some around => return (false, some around)
    | none =>
      if flags.types && b.node.isSome then
        let stopped ← SearchM.offerAll (e.types.map .type)
        return (stopped, none)
      else return (false, none)

/-- The step outwards from a type in the environment of the search. -/
def stepOut (t : TypeId) : SearchM σ (Bool × Option TypeId) := do
  stepOutFrom typeOf flags (← get).environment t

/-- The search from what lies around a type. -/
def searchAround (fuel : Nat) (t : TypeId) (visited : List TypeId) : SearchM σ Bool := do
  let (stopped, around) ← stepOut typeOf flags t
  if stopped then return true
  match around with
  | some around => collectTypesWith typeOf flags fuel around visited
  | none => return false

theorem collectTypesWith_succ (fuel : Nat) (t : TypeId) (visited : List TypeId) :
    collectTypesWith (σ := σ) typeOf flags (fuel + 1) t visited = (do
      if ← offerType flags t then return true
      let (_, visited) ← collectInherited flags t visited
      searchAround typeOf flags fuel t visited) := by
  rw [collectTypesWith]
  apply bind_congr
  intro stopped
  split
  · rfl
  apply bind_congr
  intro found
  simp only [searchAround, stepOut, stepOutFrom, bind_assoc]
  apply bind_congr
  intro st
  cases (st.environment.store.type t).isLocal
  · simp only [Bool.false_eq_true, if_false]
    cases (st.environment.store.type t).declaringClass with
    | some around => rfl
    | none =>
      simp only
      split
      · rw [bind_assoc]
        refine (bind_pure _).symm.trans (bind_congr fun stopped => ?_)
        cases stopped <;> rfl
      · rfl
  · simp only [if_true]
    cases (st.environment.store.type t).node with
    | none => rfl
    | some n =>
      simp only [Option.bind_some]
      cases n.parent with
      | none => rfl
      | some outer =>
        simp only [bind_assoc]
        apply bind_congr
        intro stopped
        cases stopped <;> rfl

/-- The search outwards that ends with every stop. -/
def collectUntilStopped : Nat → TypeId → List TypeId → SearchM σ Bool
  | 0, _, _ => throw .endless
  | fuel + 1, t, visited => do
    if ← offerType flags t then return true
    let (stopped, visited) ← collectInherited flags t visited
    if stopped then return true
    let (stopped, around) ← stepOut typeOf flags t
    if stopped then return true
    match around with
    | some around => collectUntilStopped fuel around visited
    | none => return false

end Searches

/-! ## The course of the search that ends with every stop -/

section Course

variable (ready : e₀.Ready c) {typeOf : Typing} (keeps : ∀ n, Keeps e₀.Grows (typeOf n))
  (flags : Flags) {t : TypeId}

include ready

theorem hasCourse_offerType (plain : e₀.store.IsPlain t) :
    HasCourse e₀.Grows (Offer.From e₀.store) id fun _ _ => offerType flags t := by
  refine .read_bind fun e grown => .ite (.offerAll fun b hb e' grown' => ?_) (.pure rfl)
  refine ⟨grown'.store, fun u hu => ?_⟩
  cases hu
  rw [(grown.store.declares_eq t).2.2.2] at hb
  have member : u = t ∨ u ∈ (e₀.store.type t).typeParameters := by simpa using hb
  rcases member with rfl | member
  · exact plain
  · exact ready.plain u (.inr (.inr ⟨t, .inr member⟩))

include keeps

theorem hasCourse_collectAroundLocalType (n outer : Node) (isAnonymous : Bool) :
    HasCourse e₀.Grows (Offer.From e₀.store) id fun _ _ =>
      collectAroundLocalType typeOf flags n outer isAnonymous :=
  .get_bind (fun _ _ e =>
    collectLocal typeOf outer (e.context.unit.charStart (if isAnonymous then outer else n)) flags)
    fun _ _ => hasCourse_collectLocal (mayOffer_from ready) keeps outer _ flags

/-- What goes on from a step outwards has a course if it has one from every plain type around. -/
theorem hasCourse_stepOut (plain : e₀.store.IsPlain t)
    {rest : ∀ (σ : Type) [Request σ], Bool × Option TypeId → SearchM σ Bool}
    (stopped : ∀ (σ : Type) [Request σ] around, rest σ (true, around) = pure true)
    (h : ∀ around : Option TypeId, (∀ u ∈ around, e₀.store.IsPlain u) →
      HasCourse e₀.Grows (Offer.From e₀.store) id fun σ _ => rest σ (false, around)) :
    HasCourse e₀.Grows (Offer.From e₀.store) id fun σ _ => stepOut typeOf flags t >>= rest σ := by
  have outermost := h none nofun
  simp only [stepOut, bind_assoc]
  refine .get_bind (fun σ _ e => stepOutFrom typeOf flags e t >>= rest σ) fun e grown => ?_
  simp only [stepOutFrom, grown.store.kept t plain.1]
  cases isLocal : (e₀.store.type t).isLocal
  · simp only [Bool.false_eq_true, if_false]
    cases owner : (e₀.store.type t).declaringClass with
    | some around =>
      apply h (some around)
      rintro _ ⟨⟩
      exact ready.owners t around plain.2 owner
    | none =>
      dsimp only
      split
      · simp only [bind_assoc, pure_bind]
        refine HasCourse.bind (.offerAll ?_) (fun σ _ stopped => rest σ (stopped, none)) ?_ ?_
        · intro b hb e' grown'
          refine ⟨grown'.store, fun u hu => ready.plain u (.inr (.inl ?_))⟩
          cases hu
          rw [grown.types] at hb
          simpa using hb
        · rintro _ ⟨⟩
          exact ⟨true, rfl, fun _ _ => stopped _ none⟩
        · rintro _ ⟨⟩
          exact outermost
      · exact outermost
  · simp only [if_true]
    cases (e₀.store.type t).node with
    | none => exact outermost
    | some n =>
      simp only [Option.bind_some]
      cases n.parent with
      | none => exact outermost
      | some outer =>
        simp only [bind_assoc]
        refine (hasCourse_collectAroundLocalType ready keeps flags n outer _).bind
          (fun σ _ stopped => (if stopped then pure (true, none) else get >>= fun st =>
            pure (false, st.environment.enclosingType outer)) >>= rest σ) ?_ ?_
        · rintro _ ⟨⟩
          refine ⟨true, rfl, fun _ _ => ?_⟩
          exact stopped _ none
        · rintro _ ⟨⟩
          refine .get_bind (fun σ _ e => rest σ (false, e.enclosingType outer)) fun e grown => ?_
          refine h _ fun u hu => ready.plain u ?_
          rw [grown.enclosingType] at hu
          exact Environment.declares_enclosingType hu

theorem hasCourse_collectUntilStopped (fuel : Nat) (plain : e₀.store.IsPlain t)
    (visited : List TypeId) :
    HasCourse e₀.Grows (Offer.From e₀.store) id fun _ _ =>
      collectUntilStopped typeOf flags fuel t visited := by
  induction fuel generalizing t visited with
  | zero => exact .throw .endless
  | succ fuel ih =>
    apply (hasCourse_offerType ready flags plain).orElse
    have members := hasCourse_collectInherited (mayOffer_from ready) keeps_supertypes flags t visited
    refine members.bind (fun σ _ found => if found.1 then pure true else do
      let (stopped, around) ← stepOut typeOf flags t
      if stopped then return true
      match around with
      | some around => collectUntilStopped typeOf flags fuel around found.2
      | none => return false) ?_ ?_
    · rintro ⟨_, visited'⟩ ⟨⟩
      exact ⟨true, rfl, fun _ _ => rfl⟩
    · rintro ⟨_, visited'⟩ ⟨⟩
      apply hasCourse_stepOut ready keeps flags plain (fun _ _ _ => rfl)
      intro around h
      cases around with
      | none => exact .pure rfl
      | some around => exact ih (h around rfl) visited'

end Course

/-! ## A collection never stops -/

theorem replay_collection_ne_true {log : List Offer} {c c' : Collection} :
    outcome (replay log) c ≠ (.ok true, c') := by
  intro run
  induction log generalizing c with
  | nil => cases run
  | cons o rest ih =>
    obtain ⟨stopped, c₁, first, run⟩ := outcome_bind_eq_ok.1 run
    cases (accept_collection_cases first).1
    exact ih run

/-- A search with a course does not end before it for a collection. -/
theorem HasCourse.unhalted_of_collection {α : Type} {I : Environment → Prop} {J : Offer → Prop}
    {halted : α → Bool} {search : AnySearch α} (h : HasCourse I J halted search)
    {st st' : Searching Collection} (start : I st.environment) {x : α}
    (run : outcome (search Collection) st = (.ok x, st')) : halted x = false := by
  obtain ⟨log, last, course⟩ := h st.environment start
  have follows := course.follows Collection st.request
  revert follows
  rcases replayed : outcome (replay log) st.request with ⟨f | ⟨_ | _⟩, c'⟩
  · rintro ⟨e', run', -⟩
    rw [run] at run'
    cases run'
  · intro run'
    rw [run] at run'
    exact course.unhalted x (congrArg Prod.fst run').symm
  · exact absurd replayed replay_collection_ne_true

/-- For a collection, the search outwards ends with every stop. -/
theorem outcome_collectTypesWith_collection (typeOf : Typing) (flags : Flags) (fuel : Nat)
    (t : TypeId) (visited : List TypeId) (st : Searching Collection) :
    outcome (collectTypesWith typeOf flags fuel t visited) st =
      outcome (collectUntilStopped typeOf flags fuel t visited) st := by
  -- the two differ only after a stop among the members, and a collection never stops there
  induction fuel generalizing t visited st with
  | zero => rfl
  | succ fuel ih =>
    rw [collectTypesWith_succ, collectUntilStopped, outcome_bind, outcome_bind]
    rcases outcome (offerType flags t) st with ⟨f | ⟨_ | _⟩, st₁⟩
    · rfl
    · simp only [Bool.false_eq_true, if_false]
      rw [outcome_bind, outcome_bind]
      rcases members : outcome (collectInherited flags t visited) st₁ with ⟨f | ⟨stopped, visited'⟩, st₂⟩
      · rfl
      · have unhalted : stopped = false :=
          (hasCourse_collectInherited (MayOffer.anything _) keeps_supertypes flags t
            visited).unhalted_of_collection (Environment.Grows.refl _) members
        subst unhalted
        simp only [Bool.false_eq_true, if_false, searchAround]
        rw [outcome_bind, outcome_bind]
        rcases outcome (stepOut typeOf flags t) st₂ with ⟨f | ⟨_ | _, _ | around⟩, st₃⟩
        · rfl
        · rfl
        · exact ih around visited' st₃
        · rfl
        · rfl
    · rfl

/-! ## A search for one declaration -/

/-- The declaration is found and, if access is checked, visible. -/
def Search.succeeded (r : Search) : Bool :=
  r.found && r.visible

/-- A search that has found its target does not change any more. -/
theorem keeps_found {r : Search} (found : r.found = true) (s : Store)
    (candidate : Option BindingId) : Keeps (fun r' => r' = r) (Request.accept s candidate) := by
  rintro r rfl
  have get : outcome get r = (.ok r, r) := rfl
  show (outcome (Search.accept s candidate) r).2 = r
  rw [Search.accept, outcome_bind_of_ok get, if_pos found]
  rfl

section Keeps

variable {σ : Type} [Request σ] {K : σ → Prop} {typeOf : Typing}
  (hK : ∀ s candidate, Keeps K (Request.accept s candidate))
  (keeps : ∀ n, Keeps e₀.Grows (typeOf n))

include hK keeps

theorem keeps_stepOut (flags : Flags) (t : TypeId) :
    Keeps (Searching.Within e₀.Grows K) (stepOut (σ := σ) typeOf flags t) := by
  refine Keeps.get.bind fun st => ?_
  unfold stepOutFrom
  refine .ite ?_ ?_
  · split
    · refine Keeps.bind ?_ fun stopped => .ite (.pure _) (Keeps.get.bind fun _ => .pure _)
      exact Keeps.get.bind fun _ => keeps_collectLocal hK keeps _ _ flags
    · exact .pure _
  · split
    · exact .pure _
    · exact .ite ((keeps_offerAll hK _).bind fun _ => .pure _) (.pure _)

theorem keeps_searchAround (flags : Flags) (fuel : Nat) (t : TypeId) (visited : List TypeId) :
    Keeps (Searching.Within e₀.Grows K) (searchAround (σ := σ) typeOf flags fuel t visited) := by
  refine (keeps_stepOut hK keeps flags t).bind fun found => .ite (.pure true) ?_
  split
  · exact keeps_collectTypesWith hK keeps flags fuel _ visited
  · exact .pure false

end Keeps

section Overlooks

variable (typeOf : Typing) (flags : Flags)

/-- On the way outwards from a type, the search is stopped among the members of a type without
having found the declaration, and finds it, visible, around this type. -/
inductive Overlooks : Nat → TypeId → List TypeId → Searching Search → Prop
  | here {fuel t visited visited' st st₁ st₂ x st₃} :
    outcome (offerType flags t) st = (.ok false, st₁) →
    outcome (collectInherited flags t visited) st₁ = (.ok (true, visited'), st₂) →
    st₂.request.found = false →
    outcome (searchAround typeOf flags fuel t visited') st₂ = (.ok x, st₃) →
    st₃.request.succeeded = true → Overlooks (fuel + 1) t visited st
  | around {fuel t visited visited' st st₁ st₂ outer st₃} :
    outcome (offerType flags t) st = (.ok false, st₁) →
    outcome (collectInherited flags t visited) st₁ = (.ok (false, visited'), st₂) →
    outcome (stepOut typeOf flags t) st₂ = (.ok (false, some outer), st₃) →
    Overlooks fuel outer visited' st₃ → Overlooks (fuel + 1) t visited st

variable {typeOf flags} {fuel : Nat} {t : TypeId} {visited visited' : List TypeId}
  {st st₁ st₂ st₃ : Searching Search}

theorem not_overlooks_of_offer (offer : outcome (offerType flags t) st = (.ok true, st₁)) :
    ¬ Overlooks typeOf flags (fuel + 1) t visited st := by
  intro h
  cases h with
  | here offer' =>
    rw [offer] at offer'
    cases offer'
  | around offer' =>
    rw [offer] at offer'
    cases offer'

theorem overlooks_of_stopped {x : Bool} (offer : outcome (offerType flags t) st = (.ok false, st₁))
    (members : outcome (collectInherited flags t visited) st₁ = (.ok (true, visited'), st₂))
    (rest : outcome (searchAround typeOf flags fuel t visited') st₂ = (.ok x, st₃)) :
    Overlooks typeOf flags (fuel + 1) t visited st ↔
      st₂.request.found = false ∧ st₃.request.succeeded = true := by
  constructor
  · intro h
    cases h with
    | here offer' members' unfound rest' succeeded =>
      rw [offer] at offer'
      cases offer'
      rw [members] at members'
      cases members'
      rw [rest] at rest'
      cases rest'
      exact ⟨unfound, succeeded⟩
    | around offer' members' =>
      rw [offer] at offer'
      cases offer'
      rw [members] at members'
      cases members'
  · rintro ⟨unfound, succeeded⟩
    exact .here offer members unfound rest succeeded

theorem overlooks_of_unstopped {stopped : Bool} {around : Option TypeId}
    (offer : outcome (offerType flags t) st = (.ok false, st₁))
    (members : outcome (collectInherited flags t visited) st₁ = (.ok (false, visited'), st₂))
    (step : outcome (stepOut typeOf flags t) st₂ = (.ok (stopped, around), st₃)) :
    Overlooks typeOf flags (fuel + 1) t visited st ↔
      stopped = false ∧ ∃ outer, around = some outer ∧
        Overlooks typeOf flags fuel outer visited' st₃ := by
  constructor
  · intro h
    cases h with
    | here offer' members' =>
      rw [offer] at offer'
      cases offer'
      rw [members] at members'
      cases members'
    | around offer' members' step' further =>
      rw [offer] at offer'
      cases offer'
      rw [members] at members'
      cases members'
      rw [step] at step'
      cases step'
      exact ⟨rfl, _, rfl, further⟩
  · rintro ⟨rfl, outer, rfl, further⟩
    exact .around offer members step further

/-- The search outwards ends like the one that ends with every stop exactly if it overlooks
nothing. -/
theorem succeeded_eq_iff (keeps : ∀ (e₀ : Environment) n, Keeps e₀.Grows (typeOf n)) {x : Bool}
    {st' : Searching Search}
    (run : outcome (collectTypesWith typeOf flags fuel t visited) st = (.ok x, st')) :
    ∃ y st'', outcome (collectUntilStopped typeOf flags fuel t visited) st = (.ok y, st'') ∧
      (st'.request.succeeded = st''.request.succeeded ↔
        ¬ Overlooks typeOf flags fuel t visited st) := by
  induction fuel generalizing t visited st with
  | zero => cases run
  | succ fuel ih =>
    rw [collectTypesWith_succ] at run
    obtain ⟨stopped, st₁, offer, run⟩ := outcome_bind_eq_ok.1 run
    rw [collectUntilStopped, outcome_bind_of_ok offer]
    cases stopped with
    | true =>
      cases run
      exact ⟨true, st', rfl, by simp [not_overlooks_of_offer offer]⟩
    | false =>
      obtain ⟨⟨stopped, visited'⟩, st₂, members, run⟩ := outcome_bind_eq_ok.1 run
      simp only [Bool.false_eq_true, if_false]
      rw [outcome_bind_of_ok members]
      cases stopped with
      | true =>
        refine ⟨true, st₂, rfl, ?_⟩
        -- the members stop the one search, and the other goes on outwards
        rw [overlooks_of_stopped offer members run]
        cases found : st₂.request.found with
        | false => simp [Search.succeeded, found]
        | true =>
          -- whatever comes later, a search that has found its target keeps its answer
          have rest := keeps_searchAround (keeps_found found) (keeps st₂.environment) flags fuel t visited'
          have kept := rest st₂ ⟨.refl _, rfl⟩
          rw [run] at kept
          have same : st'.request = st₂.request := kept.2
          simp [same]
      | false =>
        obtain ⟨⟨stopped, around⟩, st₃, step, run⟩ := outcome_bind_eq_ok.1 run
        simp only [Bool.false_eq_true, if_false]
        rw [outcome_bind_of_ok step, overlooks_of_unstopped offer members step]
        cases stopped with
        | true =>
          cases run
          exact ⟨true, st', rfl, by simp⟩
        | false =>
          cases around with
          | none =>
            cases run
            exact ⟨false, st', rfl, by simp⟩
          | some outer =>
            -- so far nothing differs, and one step out the induction hypothesis applies
            obtain ⟨y, st'', ends, same⟩ := ih run
            exact ⟨y, st'', ends, by simpa using same⟩

end Overlooks

end JavaScope
