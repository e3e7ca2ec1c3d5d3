import JavaScope.Proofs.Environment.Closed
import JavaScope.Proofs.Scope.Blocks
import JavaScope.Proofs.Scope.Recorder
import JavaScope.Proofs.Scope.Requests

/-!
# A walk feeds its request

A walk over a member does to every request what feeding it the candidates of the walk does: it stops
where the feed stops, leaves the request in the same state, and offers the candidates that the feed
draws. A request may look at the store in which a candidate is offered, but it takes the candidates of
a walk alike in all stores that have grown from the one the walk starts with.
-/

namespace JavaScope

/-! ## Observed requests -/

/-- A request, with the candidates that it was offered. -/
structure Observed (σ : Type) where
  request : σ
  offered : List (Option BindingId)

/-- An observed request takes a candidate as the request does. -/
instance {σ : Type} [Request σ] : Request (Observed σ) where
  accept s candidate := ExceptT.mk fun o =>
    let (answer, request) := (Request.accept s candidate).run.run o.request
    (answer, ⟨request, o.offered ++ [candidate]⟩)

section Feed

variable {σ : Type} [Request σ]

theorem outcome_accept_observed (s : Store) (candidate : Option BindingId) (o : Observed σ) :
    outcome (Request.accept s candidate) o =
      ((outcome (Request.accept s candidate) o.request).1,
        ⟨(outcome (Request.accept s candidate) o.request).2, o.offered ++ [candidate]⟩) := rfl

theorem outcome_feed_cons (s : Store) (candidate : Option BindingId)
    (rest : List (Option BindingId)) (r : σ) :
    outcome (Request.feed s (candidate :: rest)) r =
      match outcome (Request.accept s candidate) r with
      | (.ok true, r') => (.ok (true, 1), r')
      | (.ok false, r') =>
        ((outcome (Request.feed s rest) r').1.map fun (stopped, drawn) => (stopped, drawn + 1),
          (outcome (Request.feed s rest) r').2)
      | (.error f, r') => (.error f, r') := by
  rw [Request.feed, outcome_bind]
  rcases outcome (Request.accept s candidate) r with ⟨f | ⟨_ | _⟩, r'⟩
  · rfl
  · simp only [Bool.false_eq_true, if_false]
    rw [outcome_bind]
    rcases outcome (Request.feed s rest) r' with ⟨f | ⟨stopped, drawn⟩, r''⟩ <;> rfl
  · rfl

/-- Feeding an observed request is feeding the request. It was offered what was drawn. -/
theorem outcome_feed_observed (s : Store) (candidates : List (Option BindingId)) (o : Observed σ) :
    ∃ drawn, outcome (Request.feed s candidates) o =
        ((outcome (Request.feed s candidates) o.request).1,
          ⟨(outcome (Request.feed s candidates) o.request).2,
            o.offered ++ candidates.take drawn⟩) ∧
      ∀ x, (outcome (Request.feed s candidates) o.request).1 = .ok x → x.2 = drawn := by
  induction candidates generalizing o with
  | nil =>
    refine ⟨0, ?_, ?_⟩
    · rw [List.take_nil, List.append_nil]
      rfl
    · rintro _ ⟨⟩
      rfl
  | cons candidate rest ih =>
    simp only [outcome_feed_cons, outcome_accept_observed]
    rcases outcome (Request.accept s candidate) o.request with ⟨f | ⟨_ | _⟩, r⟩
    · exact ⟨1, rfl, nofun⟩
    · obtain ⟨drawn, fed, count⟩ := ih ⟨r, o.offered ++ [candidate]⟩
      refine ⟨drawn + 1, ?_, ?_⟩
      · simp only [fed, List.take_succ_cons, List.append_assoc, List.singleton_append]
      · intro x hx
        cases answer : (outcome (Request.feed s rest) r).1 with
        | error f =>
          simp only [answer, Except.map] at hx
          cases hx
        | ok y =>
          simp only [answer, Except.map] at hx
          cases hx
          exact congrArg (· + 1) (count y answer)
    · refine ⟨1, rfl, ?_⟩
      rintro _ ⟨⟩
      rfl

end Feed

/-! ## Requests that do not depend on the store -/

/-- The offer is made in a store that has grown from `s₁`, and a type that is offered is one of
`s₀`. -/
structure Offer.IsWithin (s₀ s₁ : Store) (o : Offer) : Prop where
  grown : s₁.Grows o.store
  has : ∀ t, o.candidate = some (.type t) → s₀.Has (.type t)

/-- In all stores that have grown from `s₁`, a request with `K` takes a candidate of `s₀` alike. -/
structure Steady {σ : Type} [Request σ] (s₀ s₁ : Store) (K : σ → Prop) : Prop where
  keeps : ∀ s candidate, Keeps K (Request.accept s candidate)
  alike : ∀ r, K r → ∀ candidate, (∀ t, candidate = some (.type t) → s₀.Has (.type t)) →
    ∀ s s', s₁.Grows s → s₁.Grows s' →
      outcome (Request.accept s candidate) r = outcome (Request.accept s' candidate) r

namespace Steady

variable {σ : Type} [Request σ] {s₀ s₁ s : Store} {K : σ → Prop}

theorem observed (steady : Steady s₀ s₁ K) : Steady s₀ s₁ fun o : Observed σ => K o.request where
  keeps s candidate o ho := steady.keeps s candidate o.request ho
  alike o ho candidate has s s' h h' := by
    rw [outcome_accept_observed, outcome_accept_observed,
      steady.alike o.request ho candidate has s s' h h']

/-- The replay of a log is the feed of its candidates. -/
theorem outcome_replay (steady : Steady s₀ s₁ K) (later : s₁.Grows s) {log : List Offer}
    (offers : ∀ o ∈ log, o.IsWithin s₀ s₁) {r : σ} (hr : K r) :
    outcome (replay log) r =
      ((outcome (Request.feed s (log.map Offer.candidate)) r).1.map Prod.fst,
        (outcome (Request.feed s (log.map Offer.candidate)) r).2) := by
  induction log generalizing r with
  | nil => rfl
  | cons o rest ih =>
    obtain ⟨grown, has⟩ := offers o List.mem_cons_self
    have kept := steady.keeps s o.candidate r hr
    rw [List.map_cons, outcome_replay_cons, outcome_feed_cons,
      steady.alike r hr o.candidate has o.store s grown later]
    revert kept
    rcases outcome (Request.accept s o.candidate) r with ⟨f | ⟨_ | _⟩, r'⟩ <;> intro kept
    · rfl
    · dsimp only
      rw [ih (fun o ho => offers o (List.mem_cons_of_mem _ ho)) kept]
      rcases outcome (Request.feed s (rest.map Offer.candidate)) r' with ⟨f | ⟨stopped, drawn⟩, r''⟩ <;>
        rfl
    · rfl

end Steady

/-! ## Both kinds of requests -/

/-- What the search is for is in `s₁`, and the type that it looks from in `s₀`. -/
structure Search.IsWithin (s₀ s₁ : Store) (r : Search) : Prop where
  target : ∀ t, r.target = some (.type t) → s₁.Has (.type t)
  place : ∀ t ∈ r.parentType, s₀.Has (.type t)

section Requests

variable {s₀ s₁ s s' : Store}

/-- A candidate changes only what a search notes. -/
theorem Search.keeps_isWithin (s : Store) (candidate : Option BindingId) :
    Keeps (Search.IsWithin s₀ s₁) (Request.accept s candidate) := by
  intro r hr
  rw [outcome_accept_search]
  split
  · exact hr
  split
  · exact hr
  · exact hr
  split
  · exact hr
  split
  · split
    · split <;> exact ⟨hr.target, hr.place⟩
    · exact ⟨hr.target, hr.place⟩
  · split
    · dsimp only
      split
      · exact ⟨hr.target, hr.place⟩
      · exact hr
    · exact hr

variable (closed : s₀.Closed) (grown : s₀.Grows s₁) (h : s₁.Grows s) (h' : s₁.Grows s')

include closed grown h h'

/-- Stores that have grown from `s₁` tell alike whether a candidate of `s₀` hides a binding of
`s₁`. -/
theorem Search.hides_eq {b target : BindingId} (hb : ∀ t, b = .type t → s₀.Has (.type t))
    (htarget : ∀ t, target = .type t → s₁.Has (.type t)) :
    Search.hides s b target = Search.hides s' b target := by
  have apart : s₀.Apart s s' := ⟨closed, grown.trans h, grown.trans h'⟩
  have declared := apart.has_declarationOf hb
  have signature : s.signature target = s'.signature target := by
    cases target with
    | type t => simp only [Store.signature, h.kept t (htarget t rfl), h'.kept t (htarget t rfl)]
    | «variable» v => exact Store.signature_eq closed apart.first apart.second (by rintro _ ⟨⟩)
    | method m => exact Store.signature_eq closed apart.first apart.second (by rintro _ ⟨⟩)
  simp only [Search.hides, apart.declarationOf_eq hb, apart.first.name_eq declared,
    apart.second.name_eq declared, h.name_eq htarget, h'.name_eq htarget, signature,
    Store.signature_eq closed apart.first apart.second declared]

omit h h'

theorem steady_search : Steady s₀ s₁ (Search.IsWithin s₀ s₁) where
  keeps := Search.keeps_isWithin
  alike r hr candidate has s s' h h' := by
    rw [outcome_accept_search, outcome_accept_search]
    congr 1
    cases candidate with
    | none => rfl
    | some b =>
      have hb : ∀ t, b = .type t → s₀.Has (.type t) := fun t ht => has t (by rw [ht])
      have apart : s₀.Apart s s' := ⟨closed, grown.trans h, grown.trans h'⟩
      cases looks : r.target with
      | none => rfl
      | some target =>
        have htarget : ∀ t, target = .type t → s₁.Has (.type t) :=
          fun t ht => hr.target t (by rw [looks, ht])
        simp only [apart.declarationOf_eq hb, apart.isVisible_eq hb hr.place,
          Search.hides_eq closed grown h h' hb htarget]

theorem steady_collection : Steady s₀ s₁ fun _ : Collection => True where
  keeps _ _ _ _ := trivial
  alike c _ candidate has s s' h h' := by
    cases candidate with
    | none => rfl
    | some b =>
      have hb : ∀ t, b = .type t → s₀.Has (.type t) := fun t ht => has t (by rw [ht])
      rw [outcome_accept_collection, outcome_accept_collection,
        Store.signature_eq closed (grown.trans h) (grown.trans h') hb]

end Requests

/-! ## Walks -/

/-- A search from an environment makes of a request what the feed of some candidates makes of it: the
answer, of which the feed also counts the drawn candidates, or the fault, and the state of the
request. What it offers is what the feed draws. -/
structure IsFeed (search : AnySearch Bool) (e : Environment) (s : Store)
    (candidates : List (Option BindingId)) {σ : Type} [Request σ] (r : σ)
    (answer : Except Fault (Bool × Nat)) (drawn : Nat) (r' : σ) : Prop where
  feeds : outcome (Request.feed s candidates) r = (answer, r')
  draws : outcome (Request.feed s candidates) (⟨r, []⟩ : Observed σ) =
    (answer, ⟨r', candidates.take drawn⟩)
  count : ∀ x, answer = .ok x → x.2 = drawn
  searches : ∃ e', outcome (search σ) ⟨e, r⟩ = (answer.map Prod.fst, ⟨e', r'⟩)
  offers : ∃ e', outcome (search (Observed σ)) ⟨e, ⟨r, []⟩⟩ =
    (answer.map Prod.fst, ⟨e', ⟨r', candidates.take drawn⟩⟩)

theorem outcome_replay_recorder (log : List Offer) (r : Recorder) :
    outcome (replay log) r = (.ok false, ⟨r.offered ++ log.map Offer.candidate⟩) := by
  induction log generalizing r with
  | nil =>
    rw [List.map_nil, List.append_nil]
    rfl
  | cons o rest ih =>
    have offered : outcome (Request.accept o.store o.candidate) r =
        (.ok false, ⟨r.offered ++ [o.candidate]⟩) := rfl
    rw [outcome_replay_cons, offered]
    dsimp only
    rw [ih, List.map_cons, List.append_assoc]
    rfl

section Course

variable {I : Environment → Prop} {J : Offer → Prop} {search : AnySearch Bool} {e e' : Environment}
  {log : List Offer}

/-- A search whose course ends without a fault does what the replay of its log does. -/
theorem Course.outcome_search (course : Course I J id search e log (.ok false, e')) (σ : Type)
    [Request σ] (r : σ) : ∃ e'', outcome (search σ) ⟨e, r⟩ =
      ((outcome (replay log) r).1, ⟨e'', (outcome (replay log) r).2⟩) := by
  have follows := course.follows σ r
  revert follows
  rcases outcome (replay log) r with ⟨f | ⟨_ | _⟩, r'⟩
  · rintro ⟨e'', run, -⟩
    exact ⟨e'', run⟩
  · exact fun run => ⟨e', run⟩
  · rintro ⟨x, e'', run, stopped, -⟩
    exact ⟨e'', by rw [run, show x = true from stopped]⟩

/-- The log of a course is what a search offers to a request that never stops. -/
theorem Course.eq_of_recorded {last : Except Fault Bool × Environment} {stopped : Bool}
    {candidates : List (Option BindingId)} (course : Course I J id search e log last)
    (full : outcome (search Recorder) ⟨e, Recorder.empty⟩ = (.ok stopped, ⟨e', ⟨candidates⟩⟩)) :
    stopped = false ∧ last = (.ok false, e') ∧ candidates = log.map Offer.candidate := by
  have follows := course.follows Recorder .empty
  rw [outcome_replay_recorder] at follows
  dsimp only at follows
  rw [full] at follows
  obtain ⟨answer, e₁⟩ := last
  cases follows
  have unhalted : stopped = false := course.unhalted stopped rfl
  exact ⟨unhalted, by rw [unhalted], rfl⟩

theorem Course.isFeed {s₀ s₁ s : Store} {σ : Type} [Request σ] {K : σ → Prop}
    (course : Course I (Offer.IsWithin s₀ s₁) id search e log (.ok false, e'))
    (steady : Steady s₀ s₁ K) (later : s₁.Grows s) {r : σ} (hr : K r) :
    ∃ answer drawn r', IsFeed search e s (log.map Offer.candidate) r answer drawn r' := by
  obtain ⟨drawn, draws, count⟩ :=
    outcome_feed_observed s (log.map Offer.candidate) (⟨r, []⟩ : Observed σ)
  obtain ⟨e₁, searches⟩ := course.outcome_search σ r
  obtain ⟨e₂, offers⟩ := course.outcome_search (Observed σ) ⟨r, []⟩
  rw [steady.outcome_replay later course.offers hr] at searches
  rw [steady.observed.outcome_replay later course.offers hr, draws] at offers
  exact ⟨_, drawn, _, rfl, draws, count, ⟨e₁, searches⟩, ⟨e₂, offers⟩⟩

end Course

namespace LocalWalk

/-- If the walk over a member answers for a request that never stops, then it makes of every request
what feeding it the candidates of that walk makes of it, in any store that the environment may grow
to. The environment has grown from a closed one, as every built environment is; the request refers to
bindings that are there. -/
theorem run_isFeed {e₀ e e' : Environment} (closed : e₀.Closed) (grown : e₀.Grows e)
    (declaration : Node) (position : Nat) (flags : Flags) {stopped : Bool}
    {candidates : List (Option BindingId)} {s : Store} (later : e.store.Grows s)
    (full : outcome (run Scope.expressionType (e.point position flags) declaration)
      ⟨e, Recorder.empty⟩ = (.ok stopped, ⟨e', ⟨candidates⟩⟩)) :
    let walk : AnySearch Bool :=
      fun _ _ => run Scope.expressionType (e.point position flags) declaration
    stopped = false ∧
      (∀ r : Collection, ∃ answer drawn r', IsFeed walk e s candidates r answer drawn r') ∧
      ∀ r : Search, r.IsWithin e₀.store e.store →
        ∃ answer drawn r', IsFeed walk e s candidates r answer drawn r' := by
  intro walk
  have has : ∀ n t, (e.point position flags).bindingOf n = some (.type t) →
      e₀.store.Has (.type t) := by
    intro n t declared
    have declared' : e₀.bindingOf n = some (.type t) := by
      rw [← grown.bindingOf]
      exact declared
    obtain ⟨key, member⟩ := Environment.exists_mem_of_bindingOf declared'
    exact closed.declared _ (List.mem_map_of_mem (f := Prod.snd) member)
  obtain ⟨log, last, course⟩ :
      ∃ log last, Course e.Grows (Offer.IsWithin e₀.store e.store) id walk e log last :=
    hasCourse_run Scope.keeps_expressionType (fun n e' h => ⟨h.store, has n⟩)
      (fun _ e' _ _ h _ _ => ⟨h.store, nofun⟩) declaration e (.refl e)
  obtain ⟨unstopped, rfl, rfl⟩ := course.eq_of_recorded full
  exact ⟨unstopped,
    fun r => course.isFeed (steady_collection closed.store grown.store) later trivial,
    fun r hr => course.isFeed (steady_search closed.store grown.store) later hr⟩

/-- `class A { void m() { int x, y; y++; } }` -/
def twoVariables : Context :=
  .ofFile "class A \x7b void m() \x7b int x, y; y++; \x7d \x7d" <|
    .named .program none 0 39 [
      .named .classDeclaration none 0 39 [
        .token "class" 0, .named .identifier (some .name) 6 7 [],
        .named .classBody (some .body) 8 39 [
          .token "\x7b" 8,
          .named .methodDeclaration none 10 37 [
            .named .voidType (some .type) 10 14 [], .named .identifier (some .name) 15 16 [],
            .named .formalParameters (some .parameters) 16 18 [.token "(" 16, .token ")" 17],
            .named .block (some .body) 19 37 [
              .token "\x7b" 19,
              .named .localVariableDeclaration none 21 30 [
                .named .integralType (some .type) 21 24 [.token "int" 21],
                .named .variableDeclarator (some .declarator) 25 26 [
                  .named .identifier (some .name) 25 26 []],
                .token "," 26,
                .named .variableDeclarator (some .declarator) 28 29 [
                  .named .identifier (some .name) 28 29 []],
                .token ";" 29],
              .named .expressionStatement none 31 35 [
                .named (.other "update_expression") none 31 34 [
                  .named .identifier none 31 32 [], .token "++" 32],
                .token ";" 34],
              .token "\x7d" 36]],
          .token "\x7d" 38]]]

/-- The method of that file. -/
def methodOfTwo : Node :=
  (twoVariables.root.preorder.find? (·.kind == .methodDeclaration)).getD twoVariables.root

/-- A search for the second of its variables. -/
def searchOfTwo : Search :=
  .new (some (.variable ⟨1⟩)) none .onlyVariables

set_option maxRecDepth 100000 in
theorem twoVariables_candidates :
    (match Environment.build twoVariables with
    | .error _ => none
    | .ok e =>
      match outcome (run Scope.expressionType (e.point 32 .onlyVariables) methodOfTwo)
          ⟨e, Recorder.empty⟩ with
      | (.error _, _) => none
      | (.ok stopped, ⟨_, r⟩) =>
        some (stopped, r.offered, (outcome (Request.feed e.store r.offered) searchOfTwo).1.toOption)) =
      some (false, [some (.variable ⟨1⟩), some (.variable ⟨0⟩)], some (true, 1)) := by
  decide +kernel

/-- A walk goes backwards: the search stops at `y`, and `x` stays undrawn. -/
theorem run_isFeed_twoVariables :
    ∃ e e', Environment.build twoVariables = .ok e ∧ e.Closed ∧
      let walk : AnySearch Bool := fun _ _ =>
        run Scope.expressionType (e.point 32 .onlyVariables) methodOfTwo
      let candidates := [some (BindingId.variable ⟨1⟩), some (.variable ⟨0⟩)]
      outcome (walk Recorder) ⟨e, Recorder.empty⟩ = (.ok false, ⟨e', ⟨candidates⟩⟩) ∧
        searchOfTwo.IsWithin e.store e.store ∧
        (∃ answer drawn r', IsFeed walk e e.store candidates (Collection.new none .onlyVariables)
          answer drawn r') ∧
        ∃ r', IsFeed walk e e.store candidates searchOfTwo (.ok (true, 1)) 1 r' := by
  have computed := twoVariables_candidates
  split at computed
  · cases computed
  · next e built =>
    split at computed
    · cases computed
    · next stopped e' r full =>
      obtain ⟨offered⟩ := r
      obtain ⟨rfl, rfl, stops⟩ : stopped = false ∧
          offered = [some (.variable ⟨1⟩), some (.variable ⟨0⟩)] ∧
          (outcome (Request.feed e.store offered) searchOfTwo).1.toOption = some (true, 1) := by
        simpa only [Option.some.injEq, Prod.mk.injEq] using computed
      have closed := (Environment.build_ready built).sound.closed
      have within : searchOfTwo.IsWithin e.store e.store := ⟨nofun, nofun⟩
      obtain ⟨-, collections, searches⟩ :=
        run_isFeed closed (.refl e) methodOfTwo 32 .onlyVariables (.refl e.store) full
      obtain ⟨answer, drawn, r', fed⟩ := searches searchOfTwo within
      rw [fed.feeds] at stops
      obtain rfl : answer = .ok (true, 1) := by
        cases answer with
        | ok x => exact congrArg Except.ok (Option.some.inj stops)
        | error f => cases stops
      obtain rfl : 1 = drawn := fed.count _ rfl
      exact ⟨e, e', built, closed, full, within, collections _, r', fed⟩

end LocalWalk

end JavaScope
