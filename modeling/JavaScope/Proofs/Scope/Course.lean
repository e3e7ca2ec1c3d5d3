import JavaScope.Scope.Search
import JavaScope.Proofs.Action

/-!
# Courses of searches

What a search offers does not depend on the request, which only decides how far the search gets. So
a search has a course: the candidates that a request is offered if it never stops, and how the
search ends then. With any request, the search is the replay of that log as far as the request lets
it, and ends like its course if the request does not stop it.
-/

namespace JavaScope

/-- A candidate together with the store in which it is offered. -/
structure Offer where
  store : Store
  candidate : Option BindingId

/-- Offers the candidates of a log until the request stops; answers whether it did. -/
def replay {σ : Type} [Request σ] : List Offer → RequestM σ Bool
  | [] => return false
  | offer :: rest => do
    if ← Request.accept offer.store offer.candidate then return true
    replay rest

/-- A search that is there for every kind of request. -/
abbrev AnySearch (α : Type) := ∀ (σ : Type) [Request σ], SearchM σ α

theorem outcome_start_eq_ok {σ α : Type} {search : SearchM σ α} {r r' : σ} {e e' : Environment}
    {a : α} : outcome (SearchM.start r search) e = (.ok (a, r'), e') ↔
      outcome search ⟨e, r⟩ = (.ok a, ⟨e', r'⟩) := by
  have unfolded : outcome (SearchM.start r search) e =
      ((outcome search ⟨e, r⟩).1.map fun a => (a, (outcome search ⟨e, r⟩).2.request),
        (outcome search ⟨e, r⟩).2.environment) := rfl
  rw [unfolded]
  rcases outcome search ⟨e, r⟩ with ⟨f | b, ⟨e₁, r₁⟩⟩
  · simp [Except.map]
  · simp only [Except.map, Prod.mk.injEq, Except.ok.injEq, Searching.mk.injEq]
    constructor
    · rintro ⟨⟨ha, hr⟩, he⟩
      exact ⟨ha, he, hr⟩
    · rintro ⟨ha, he, hr⟩
      exact ⟨⟨ha, hr⟩, he⟩

theorem SearchM.outcome_read_bind {σ α β : Type} (g : Environment → α) (f : α → SearchM σ β)
    (st : Searching σ) : outcome (SearchM.read g >>= f) st = outcome (f (g st.environment)) st :=
  rfl

theorem SearchM.outcome_lift_eq_ok {σ α : Type} {action : EnvironmentM α} {st st' : Searching σ}
    {a : α} : outcome (SearchM.lift action) st = (.ok a, st') ↔
      ∃ e, outcome action st.environment = (.ok a, e) ∧ st' = { st with environment := e } := by
  have run : outcome (SearchM.lift action) st = ((outcome action st.environment).1,
      { st with environment := (outcome action st.environment).2 }) := rfl
  rw [run]
  rcases outcome action st.environment with ⟨answer, e⟩
  constructor
  · rintro ⟨⟩
    exact ⟨e, rfl, rfl⟩
  · rintro ⟨_, ⟨⟩, rfl⟩
    rfl

/-! ## Replays -/

section Replay

variable {σ : Type} [Request σ]

theorem outcome_replay_cons (offer : Offer) (rest : List Offer) (r : σ) :
    outcome (replay (offer :: rest)) r =
      match outcome (Request.accept offer.store offer.candidate) r with
      | (.ok true, r') => (.ok true, r')
      | (.ok false, r') => outcome (replay rest) r'
      | (.error f, r') => (.error f, r') := by
  rw [replay, outcome_bind]
  rcases outcome (Request.accept offer.store offer.candidate) r with ⟨_ | ⟨_ | _⟩, _⟩ <;> rfl

theorem outcome_replay_append (log log' : List Offer) (r : σ) :
    outcome (replay (log ++ log')) r =
      match outcome (replay log) r with
      | (.ok true, r') => (.ok true, r')
      | (.ok false, r') => outcome (replay log') r'
      | (.error f, r') => (.error f, r') := by
  induction log generalizing r with
  | nil => rfl
  | cons offer rest ih =>
    rw [List.cons_append, outcome_replay_cons, outcome_replay_cons]
    rcases outcome (Request.accept offer.store offer.candidate) r with ⟨_ | ⟨_ | _⟩, r'⟩
    · rfl
    · exact ih r'
    · rfl

/-- What every candidate leaves as it is in the request, a replay does. -/
theorem keeps_replay {K : σ → Prop} (hK : ∀ s candidate, Keeps K (Request.accept s candidate))
    (log : List Offer) : Keeps K (replay log) := by
  induction log with
  | nil => exact .pure false
  | cons offer rest ih => exact (hK _ _).bind fun _ => .ite (.pure true) ih

end Replay

/-! ## Courses -/

section Course

variable (I : Environment → Prop) (J : Offer → Prop) {α β : Type}

/-- From the environment `e`, a search runs through the log and ends with `last` unless the request
stops it, which an answer with `halted` tells. Environments on the way have `I`, and offers `J`. -/
structure Course (halted : α → Bool) (search : AnySearch α) (e : Environment) (log : List Offer)
    (last : Except Fault α × Environment) : Prop where
  offers : ∀ offer ∈ log, J offer
  invariant : I last.2
  unhalted : ∀ x, last.1 = .ok x → halted x = false
  follows : ∀ (σ : Type) [Request σ] (r : σ),
    match outcome (replay log) r with
    | (.ok false, r') => outcome (search σ) ⟨e, r⟩ = (last.1, ⟨last.2, r'⟩)
    | (.ok true, r') =>
      ∃ x e', outcome (search σ) ⟨e, r⟩ = (.ok x, ⟨e', r'⟩) ∧ halted x = true ∧ I e'
    | (.error f, r') => ∃ e', outcome (search σ) ⟨e, r⟩ = (.error f, ⟨e', r'⟩) ∧ I e'

/-- From every environment with `I`, the search has a course. -/
def HasCourse (halted : α → Bool) (search : AnySearch α) : Prop :=
  ∀ e, I e → ∃ log last, Course I J halted search e log last

variable {I J} {halted : α → Bool}

namespace HasCourse

theorem pure {x : α} (h : halted x = false) : HasCourse I J halted fun _ _ => Pure.pure x := by
  intro e he
  refine ⟨[], (.ok x, e), nofun, he, ?_, fun _ _ _ => rfl⟩
  rintro _ ⟨⟩
  exact h

theorem throw (f : Fault) : HasCourse I J halted fun _ _ => MonadExcept.throw f :=
  fun e he => ⟨[], (.error f, e), nofun, he, nofun, fun _ _ _ => rfl⟩

/-- An action on the environment alone offers nothing. -/
theorem lift {action : EnvironmentM α} (h : Keeps I action) :
    HasCourse I J (fun _ => false) fun _ _ => SearchM.lift action :=
  fun e he => ⟨[], outcome action e, nofun, h e he, fun _ _ => rfl, fun _ _ _ => rfl⟩

theorem offer {candidate : Option BindingId} (h : ∀ e, I e → J ⟨e.store, candidate⟩) :
    HasCourse I J id fun _ _ => SearchM.offer candidate := by
  intro e he
  refine ⟨[⟨e.store, candidate⟩], (.ok false, e), ?_, he, ?_, fun σ _ r => ?_⟩
  · simpa using h e he
  · rintro _ ⟨⟩
    rfl
  · have run : outcome (SearchM.offer candidate) (⟨e, r⟩ : Searching σ) =
        ((outcome (Request.accept e.store candidate) r).1,
          ⟨e, (outcome (Request.accept e.store candidate) r).2⟩) := rfl
    rw [run, outcome_replay_cons]
    rcases outcome (Request.accept e.store candidate) r with ⟨f | ⟨_ | _⟩, r'⟩
    · exact ⟨e, rfl, he⟩
    · rfl
    · exact ⟨true, e, rfl, rfl, he⟩

theorem ofExcept (x : Except Fault α) :
    HasCourse I J (fun _ => false) fun _ _ => MonadExcept.ofExcept x := by
  cases x with
  | error f => exact throw f
  | ok x => exact pure rfl

/-- A stopped search only hands the stop on, and another one goes on with the rest. -/
theorem bind {halted' : β → Bool} {search : AnySearch α} (h : HasCourse I J halted search)
    (rest : ∀ (σ : Type) [Request σ], α → SearchM σ β)
    (stopped : ∀ x, halted x = true →
      ∃ y, halted' y = true ∧ ∀ (σ : Type) [Request σ], rest σ x = Pure.pure y)
    (h' : ∀ x, halted x = false → HasCourse I J halted' fun σ _ => rest σ x) :
    HasCourse I J halted' fun σ _ => search σ >>= rest σ := by
  intro e he
  obtain ⟨log, ⟨answer, e₁⟩, course⟩ := h e he
  cases answer with
  | error f =>
    refine ⟨log, (.error f, e₁), course.offers, course.invariant, nofun, fun σ _ r => ?_⟩
    have run := course.follows σ r
    revert run
    rcases outcome (replay log) r with ⟨g | ⟨_ | _⟩, r'⟩
    · rintro ⟨e', run, he'⟩
      exact ⟨e', outcome_bind_of_error run _, he'⟩
    · exact fun run => outcome_bind_of_error run _
    · rintro ⟨x, e', run, hx, he'⟩
      obtain ⟨y, hy, rest_eq⟩ := stopped x hx
      refine ⟨y, e', ?_, hy, he'⟩
      rw [outcome_bind_of_ok run, rest_eq, outcome_pure]
  | ok x =>
    obtain ⟨log', last', course'⟩ := h' x (course.unhalted x rfl) e₁ course.invariant
    refine ⟨log ++ log', last', ?_, course'.invariant, course'.unhalted, fun σ _ r => ?_⟩
    · intro offer member
      exact (List.mem_append.1 member).elim (course.offers offer) (course'.offers offer)
    · have run := course.follows σ r
      rw [outcome_replay_append]
      revert run
      rcases outcome (replay log) r with ⟨g | ⟨_ | _⟩, r'⟩
      · rintro ⟨e', run, he'⟩
        exact ⟨e', outcome_bind_of_error run _, he'⟩
      · intro run
        have run' := course'.follows σ r'
        rw [outcome_bind_of_ok run]
        exact run'
      · rintro ⟨x, e', run, hx, he'⟩
        obtain ⟨y, hy, rest_eq⟩ := stopped x hx
        refine ⟨y, e', ?_, hy, he'⟩
        rw [outcome_bind_of_ok run, rest_eq, outcome_pure]

/-- What follows an action that offers nothing. -/
theorem bind_silent {halted' : β → Bool} {search : AnySearch α}
    {rest : ∀ (σ : Type) [Request σ], α → SearchM σ β}
    (h : HasCourse I J (fun _ => false) search)
    (h' : ∀ x, HasCourse I J halted' fun σ _ => rest σ x) :
    HasCourse I J halted' fun σ _ => search σ >>= rest σ :=
  h.bind rest (by rintro _ ⟨⟩) fun x _ => h' x

/-- A search that goes on unless it was stopped. -/
theorem orElse {search rest : AnySearch Bool} (h : HasCourse I J id search)
    (h' : HasCourse I J id rest) :
    HasCourse I J id (fun σ _ => do
      if ← search σ then return true
      rest σ) := by
  refine h.bind (fun σ _ stopped => if stopped then Pure.pure true else rest σ) ?_ ?_
  · rintro _ ⟨⟩
    exact ⟨true, rfl, fun _ _ => rfl⟩
  · rintro _ ⟨⟩
    exact h'

theorem ite {c : Prop} [Decidable c] {search search' : AnySearch α}
    (h : HasCourse I J halted search) (h' : HasCourse I J halted search') :
    HasCourse I J halted fun σ _ => if c then search σ else search' σ := by
  by_cases hc : c
  · simpa only [hc, if_true] using h
  · simpa only [hc, if_false] using h'

theorem read_bind {f : Environment → α} {halted' : β → Bool}
    {rest : ∀ (σ : Type) [Request σ], α → SearchM σ β}
    (h : ∀ e, I e → HasCourse I J halted' fun σ _ => rest σ (f e)) :
    HasCourse I J halted' fun σ _ => SearchM.read f >>= rest σ := by
  intro e he
  obtain ⟨log, last, course⟩ := h e he e he
  exact ⟨log, last, { course with }⟩

theorem get_bind {halted' : β → Bool}
    (rest : ∀ (σ : Type) [Request σ], Environment → SearchM σ β)
    (h : ∀ e, I e → HasCourse I J halted' fun σ _ => rest σ e) :
    HasCourse I J halted' fun σ _ => get >>= fun st => rest σ st.environment := by
  intro e he
  obtain ⟨log, last, course⟩ := h e he e he
  exact ⟨log, last, { course with }⟩

theorem anyM {xs : List α} {search : α → AnySearch Bool}
    (h : ∀ x ∈ xs, HasCourse I J id (search x)) :
    HasCourse I J id fun σ _ => xs.anyM fun x => search x σ := by
  induction xs with
  | nil => exact pure rfl
  | cons x xs ih =>
    have hxs := ih fun y hy => h y (List.mem_cons_of_mem x hy)
    refine (h x List.mem_cons_self).bind (fun σ _ stopped =>
      match stopped with
      | true => Pure.pure true
      | false => xs.anyM fun x => search x σ) ?_ ?_
    · rintro _ ⟨⟩
      exact ⟨true, rfl, fun _ _ => rfl⟩
    · rintro _ ⟨⟩
      exact hxs

theorem offerAll {bindings : List BindingId}
    (h : ∀ b ∈ bindings, ∀ e, I e → J ⟨e.store, some b⟩) :
    HasCourse I J id fun _ _ => SearchM.offerAll bindings :=
  anyM fun b hb => offer (h b hb)

/-- A search with a course keeps what is invariant on its way, and what every candidate leaves as it
is in the request. -/
theorem keeps {search : AnySearch α} (h : HasCourse I J halted search) {σ : Type} [Request σ]
    {K : σ → Prop} (hK : ∀ s candidate, Keeps K (Request.accept s candidate)) :
    Keeps (fun st : Searching σ => I st.environment ∧ K st.request) (search σ) := by
  rintro ⟨e, r⟩ ⟨he, hr⟩
  obtain ⟨log, last, course⟩ := h e he
  have run := course.follows σ r
  have kept := keeps_replay hK log r hr
  revert run kept
  rcases outcome (replay log) r with ⟨g | ⟨_ | _⟩, r'⟩
  · rintro ⟨e', run, he'⟩ kept
    rw [run]
    exact ⟨he', kept⟩
  · intro run kept
    rw [run]
    exact ⟨course.invariant, kept⟩
  · rintro ⟨x, e', run, hx, he'⟩ kept
    rw [run]
    exact ⟨he', kept⟩

end HasCourse

end Course

end JavaScope
