import JavaScope.Proofs.Environment.Closed
import JavaScope.Proofs.Scope.Growth
import JavaScope.Proofs.Scope.Requests

/-!
# Collections for several kinds and for one

A collection for several kinds of declarations and one for a single kind of these run abreast if the
second has what the first has of its kind. `Tracks` compares two actions from such states, with a
rule for every way in which actions are put together, and `Parallel` is the case of two searches.
-/

namespace JavaScope

/-! ## One kind of several -/

namespace Flags

/-- The flags ask for a kind of declarations. -/
def asks (f : Flags) : BindingKind → Bool
  | .type => f.types
  | .variable => f.vars
  | .method => f.methods

/-- The flags that ask for one kind alone, with access checked or not as before. -/
def only (f : Flags) (k : BindingKind) : Flags where
  methods := k == .method
  vars := k == .variable
  types := k == .type
  checkVisibility := f.checkVisibility

@[simp] theorem asks_only (f : Flags) (k k' : BindingKind) : (f.only k).asks k' = (k == k') := by
  cases k' <;> rfl

end Flags

theorem kind_of_mem_map {α : Type} {f : α → BindingId} {k : BindingKind} (kind : ∀ a, (f a).kind = k)
    (xs : List α) : ∀ b ∈ xs.map f, b.kind = k := by
  intro b hb
  obtain ⟨a, -, rfl⟩ := List.mem_map.1 hb
  exact kind a

/-- Among bindings of one kind, either all or none are of a kind. -/
theorem filter_kind {xs : List BindingId} {k k' : BindingKind} (kind : ∀ b ∈ xs, b.kind = k') :
    xs.filter (·.kind == k) = if k = k' then xs else [] := by
  split
  · next same => exact List.filter_eq_self.2 fun b hb => by simp [same, kind b hb]
  · next other =>
    exact List.filter_eq_nil_iff.2 fun b hb => by simpa [kind b hb] using Ne.symm other

/-! ## Two actions -/

section Tracks

variable {σ σ' α α' β β' : Type}

/-- Wherever the first action answers, from states in a relation, so does the second one, and the
answers with the states after them are in a relation again. -/
def Tracks (P : σ → σ' → Prop) (a : Action σ α) (a' : Action σ' α')
    (Q : α → α' → σ → σ' → Prop) : Prop :=
  ∀ s s', P s s' → ∀ x s₁, outcome a s = (.ok x, s₁) →
    ∃ x' s₁', outcome a' s' = (.ok x', s₁') ∧ Q x x' s₁ s₁'

namespace Tracks

variable {P : σ → σ' → Prop} {Q : α → α' → σ → σ' → Prop} {R : β → β' → σ → σ' → Prop}

protected theorem pure {a : α} {a' : α'} (h : ∀ s s', P s s' → Q a a' s s') :
    Tracks P (pure a) (pure a') Q := by
  rintro s s' hs _ _ ⟨⟩
  exact ⟨a', s', rfl, h s s' hs⟩

protected theorem bind {a : Action σ α} {a' : Action σ' α'} {f : α → Action σ β}
    {f' : α' → Action σ' β'} (ha : Tracks P a a' Q)
    (hf : ∀ x x', Tracks (Q x x') (f x) (f' x') R) : Tracks P (a >>= f) (a' >>= f') R := by
  intro s s' hs y s₂ run
  obtain ⟨x, s₁, first, rest⟩ := outcome_bind_eq_ok.1 run
  obtain ⟨x', s₁', first', hx⟩ := ha s s' hs x s₁ first
  rw [outcome_bind_of_ok first']
  exact hf x x' s₁ s₁' hx y s₂ rest

theorem weaken {P' : σ → σ' → Prop} {Q' : α → α' → σ → σ' → Prop} {a : Action σ α}
    {a' : Action σ' α'} (h : Tracks P a a' Q) (hP : ∀ s s', P' s s' → P s s')
    (hQ : ∀ x x' s s', Q x x' s s' → Q' x x' s s') : Tracks P' a a' Q' := by
  intro s s' hs x s₁ run
  obtain ⟨x', s₁', run', hx⟩ := h s s' (hP s s' hs) x s₁ run
  exact ⟨x', s₁', run', hQ x x' s₁ s₁' hx⟩

/-- The states before two actions may be named. -/
theorem from_states {a : Action σ α} {a' : Action σ' α'}
    (h : ∀ s s', P s s' → Tracks (fun r r' => r = s ∧ r' = s') a a' Q) : Tracks P a a' Q :=
  fun s s' hs => h s s' hs s s' ⟨rfl, rfl⟩

end Tracks

end Tracks

/-! ## States abreast -/

/-- Two collections are abreast if both environments extend `e₀`, where they are `tied` to each other
the same one, and the second collection has what the first one has of a kind. -/
structure Abreast (e₀ : Environment) (k : BindingKind) (tied : Prop)
    (st st' : Searching Collection) : Prop where
  first : e₀.Extends st.environment
  second : e₀.Extends st'.environment
  same : tied → st'.environment = st.environment
  stored : ∀ b ∈ st.request.bindings, ∀ t, b = .type t → e₀.store.Has (.type t)
  bindings : st'.request.bindings = st.request.bindings.filter (·.kind == k)
  signatures : ∀ x : String, x.toList.head? = some (Store.kindLetter k) →
    (x ∈ st'.request.signatures ↔ x ∈ st.request.signatures)

/-- From states abreast, where the first search answers, neither search stops, and they are abreast
again. -/
def Parallel (e₀ : Environment) (k : BindingKind) (tied : Prop)
    (search search' : SearchM Collection Bool) : Prop :=
  Tracks (Abreast e₀ k tied) search search' fun x x' st st' =>
    x = false ∧ x' = false ∧ Abreast e₀ k tied st st'

variable {e₀ : Environment} {k : BindingKind} {tied : Prop}

namespace Abreast

variable {st st' : Searching Collection}

theorem apart (closed : e₀.Closed) (h : Abreast e₀ k tied st st') :
    e₀.store.Apart st.environment.store st'.environment.store :=
  ⟨closed.store, h.first.store, h.second.store⟩

/-- The environments may change to others that extend `e₀`. -/
theorem withEnvironments {e e' : Environment} (h : Abreast e₀ k tied st st')
    (first : e₀.Extends e) (second : e₀.Extends e') (same : tied → e' = e) :
    Abreast e₀ k tied { st with environment := e } { st' with environment := e' } :=
  ⟨first, second, same, h.stored, h.bindings, h.signatures⟩

end Abreast

/-- The first letter of a signature tells the kind. -/
theorem Store.head_of_signature {s : Store} {b : BindingId} {x : String}
    (signed : s.signature b = .ok x) : x.toList.head? = some (kindLetter b.kind) := by
  obtain ⟨rest, letters, -⟩ := signature_eq_ok signed
  rw [letters, List.head?_cons]

theorem Store.kindLetter_injective : Function.Injective kindLetter := by
  intro a b
  cases a <;> cases b <;> simp [kindLetter]

namespace Parallel

variable {search search' rest rest' : SearchM Collection Bool}

protected theorem pure : Parallel e₀ k tied (pure false) (pure false) :=
  Tracks.pure fun _ _ h => ⟨rfl, rfl, h⟩

/-- What follows two searches has to run in parallel only where neither of them stopped. -/
theorem andThen {f f' : Bool → SearchM Collection Bool} (h : Parallel e₀ k tied search search')
    (h' : Parallel e₀ k tied (f false) (f' false)) :
    Parallel e₀ k tied (search >>= f) (search' >>= f') := by
  refine Tracks.bind h fun x x' => Tracks.from_states ?_
  rintro st st' ⟨rfl, rfl, abreast⟩
  refine h'.weaken ?_ fun _ _ _ _ h => h
  rintro _ _ ⟨rfl, rfl⟩
  exact abreast

/-- Searches that go on unless they were stopped. -/
theorem orElse (h : Parallel e₀ k tied search search') (h' : Parallel e₀ k tied rest rest') :
    Parallel e₀ k tied (do
      if ← search then return true
      rest) (do
      if ← search' then return true
      rest') :=
  h.andThen h'

theorem ite {c : Prop} [Decidable c] (h : c → Parallel e₀ k tied search search')
    (h' : ¬c → Parallel e₀ k tied rest rest') :
    Parallel e₀ k tied (if c then search else rest) (if c then search' else rest') := by
  by_cases hc : c
  · simpa only [hc, if_true] using h hc
  · simpa only [hc, if_false] using h' hc

/-- The second search need not take part in a branch of the first one. -/
theorem ite_left {c : Prop} [Decidable c] (h : c → Parallel e₀ k tied search search')
    (h' : ¬c → Parallel e₀ k tied rest search') :
    Parallel e₀ k tied (if c then search else rest) search' := by
  by_cases hc : c
  · simpa only [hc, if_true] using h hc
  · simpa only [hc, if_false] using h' hc

theorem anyM {α : Type} {xs : List α} {f f' : α → SearchM Collection Bool}
    (h : ∀ x ∈ xs, Parallel e₀ k tied (f x) (f' x)) :
    Parallel e₀ k tied (xs.anyM f) (xs.anyM f') := by
  induction xs with
  | nil => exact .pure
  | cons x xs ih =>
    exact (h x List.mem_cons_self).andThen (ih fun y hy => h y (List.mem_cons_of_mem x hy))

/-! ### Reading the environments -/

/-- What is read of the environments may differ. -/
theorem get_bind {f f' : Environment → SearchM Collection Bool}
    (h : ∀ e e', e₀.Extends e → e₀.Extends e' → (tied → e' = e) →
      Parallel e₀ k tied (f e) (f' e')) :
    Parallel e₀ k tied (get >>= fun st => f st.environment)
      (get >>= fun st => f' st.environment) :=
  fun st st' abreast =>
    h st.environment st'.environment abreast.first abreast.second abreast.same st st' abreast

theorem read_bind {α : Type} {g g' : Environment → α} {f f' : α → SearchM Collection Bool}
    (h : ∀ e e', e₀.Extends e → e₀.Extends e' → (tied → e' = e) →
      Parallel e₀ k tied (f (g e)) (f' (g' e'))) :
    Parallel e₀ k tied (SearchM.read g >>= f) (SearchM.read g' >>= f') :=
  fun st st' abreast =>
    h st.environment st'.environment abreast.first abreast.second abreast.same st st' abreast

/-- Tied environments change in the same way. -/
theorem lift_bind {α : Type} {action : EnvironmentM α} {f f' : α → SearchM Collection Bool}
    (ties : tied) (keeps : Keeps e₀.Extends action)
    (h : ∀ x, Parallel e₀ k tied (f x) (f' x)) :
    Parallel e₀ k tied (SearchM.lift action >>= f) (SearchM.lift action >>= f') := by
  refine Tracks.bind (Q := fun x x' st st' => x' = x ∧ Abreast e₀ k tied st st') ?_ fun x x' =>
    Tracks.from_states ?_
  · intro st st' abreast x st₁ run
    obtain ⟨e, acted, rfl⟩ := SearchM.outcome_lift_eq_ok.1 run
    have kept := keeps.ensures _ abreast.first x e acted
    rw [← abreast.same ties] at acted
    exact ⟨x, _, SearchM.outcome_lift_eq_ok.2 ⟨e, acted, rfl⟩, rfl,
      abreast.withEnvironments kept kept fun _ => rfl⟩
  · rintro st st' ⟨rfl, abreast⟩
    refine (h x').weaken ?_ fun _ _ _ _ h => h
    rintro _ _ ⟨rfl, rfl⟩
    exact abreast

/-- Environments that are not tied may change on the first side only. -/
theorem lift_bind_left {α : Type} {action : EnvironmentM α} {f : α → SearchM Collection Bool}
    (free : ¬ tied) (keeps : Keeps e₀.Extends action)
    (h : ∀ x, Parallel e₀ k tied (f x) search') :
    Parallel e₀ k tied (SearchM.lift action >>= f) search' := by
  intro st st' abreast y st₂ run
  obtain ⟨x, st₁, lifted, run⟩ := outcome_bind_eq_ok.1 run
  obtain ⟨e, acted, rfl⟩ := SearchM.outcome_lift_eq_ok.1 lifted
  have kept := keeps.ensures _ abreast.first x e acted
  exact h x _ st' (abreast.withEnvironments kept abreast.second fun ties => absurd ties free)
    y st₂ run

theorem read_bind_left {α : Type} {g : Environment → α} {f : α → SearchM Collection Bool}
    (h : ∀ e, e₀.Extends e → Parallel e₀ k tied (f (g e)) search') :
    Parallel e₀ k tied (SearchM.read g >>= f) search' :=
  fun st st' abreast => h st.environment abreast.first st st' abreast

/-! ### Offers -/

section Offers

variable (closed : e₀.Closed)

include closed

/-- A candidate of the kind is taken by both collections or by neither. -/
theorem offer {candidate : Option BindingId} (kind : ∀ b ∈ candidate, b.kind = k)
    (stored : ∀ t, candidate = some (.type t) → e₀.store.Has (.type t)) :
    Parallel e₀ k tied (SearchM.offer candidate) (SearchM.offer candidate) := by
  intro st st' abreast x st₁ run
  cases candidate with
  | none =>
    cases run
    exact ⟨false, st', rfl, rfl, rfl, abreast⟩
  | some b =>
    have isKind := kind b rfl
    have has : ∀ t, b = .type t → e₀.store.Has (.type t) := fun t ht => stored t (by rw [ht])
    rw [outcome_offer_collection] at run ⊢
    rw [← Store.signature_eq closed.store abreast.first.store abreast.second.store has]
    cases signed : st.environment.store.signature b with
    | error f =>
      rw [signed] at run
      cases run
    | ok y =>
      rw [signed] at run
      cases run
      refine ⟨false, _, rfl, rfl, rfl, ?_⟩
      have agree := abreast.signatures y (isKind ▸ Store.head_of_signature signed)
      by_cases known : y ∈ st.request.signatures
      · simp only [List.contains_iff_mem, agree, known, if_true]
        exact abreast
      · simp only [List.contains_iff_mem, agree, known, if_false]
        refine ⟨abreast.first, abreast.second, abreast.same, fun b' hb' => ?_, ?_, fun z hz => ?_⟩
        · rcases List.mem_append.1 hb' with hb' | hb'
          · exact abreast.stored b' hb'
          · rw [List.mem_singleton.1 hb']
            exact has
        · show st'.request.bindings ++ [b] = (st.request.bindings ++ [b]).filter _
          rw [List.filter_append, abreast.bindings]
          simp [isKind]
        · show z ∈ y :: st'.request.signatures ↔ z ∈ y :: st.request.signatures
          rw [List.mem_cons, List.mem_cons, abreast.signatures z hz]

omit closed in
/-- A candidate of another kind changes nothing in the second collection. -/
theorem offer_left {candidate : Option BindingId} (kind : ∀ b ∈ candidate, b.kind ≠ k)
    (stored : ∀ t, candidate = some (.type t) → e₀.store.Has (.type t)) :
    Parallel e₀ k tied (SearchM.offer candidate) (pure false) := by
  intro st st' abreast x st₁ run
  refine ⟨false, st', rfl, ?_⟩
  cases candidate with
  | none =>
    cases run
    exact ⟨rfl, rfl, abreast⟩
  | some b =>
    have other := kind b rfl
    rw [outcome_offer_collection] at run
    cases signed : st.environment.store.signature b with
    | error f =>
      rw [signed] at run
      cases run
    | ok y =>
      rw [signed] at run
      cases run
      refine ⟨rfl, rfl, ?_⟩
      by_cases known : y ∈ st.request.signatures
      · simp only [List.contains_iff_mem, known, if_true]
        exact abreast
      · simp only [List.contains_iff_mem, known, if_false]
        refine ⟨abreast.first, abreast.second, abreast.same, fun b' hb' => ?_, ?_, fun z hz => ?_⟩
        · rcases List.mem_append.1 hb' with hb' | hb'
          · exact abreast.stored b' hb'
          · rw [List.mem_singleton.1 hb']
            exact fun t ht => stored t (by rw [ht])
        · show st'.request.bindings = (st.request.bindings ++ [b]).filter _
          rw [List.filter_append, abreast.bindings]
          simp [other]
        · have new : z ≠ y := by
            rintro rfl
            rw [Store.head_of_signature signed] at hz
            exact other (Store.kindLetter_injective (Option.some.inj hz))
          show z ∈ st'.request.signatures ↔ z ∈ y :: st.request.signatures
          rw [List.mem_cons, abreast.signatures z hz]
          simp [new]

/-- Of the bindings that the first search offers, the second one offers those of the kind. -/
theorem offerAll {bindings : List BindingId}
    (stored : ∀ t, .type t ∈ bindings → e₀.store.Has (.type t)) :
    Parallel e₀ k tied (SearchM.offerAll bindings)
      (SearchM.offerAll (bindings.filter (·.kind == k))) := by
  induction bindings with
  | nil => exact .pure
  | cons b rest ih =>
    have rest' := ih fun t ht => stored t (List.mem_cons_of_mem b ht)
    have first : ∀ t, some b = some (.type t) → e₀.store.Has (.type t) := by
      rintro t ⟨⟩
      exact stored t List.mem_cons_self
    by_cases kind : b.kind = k
    · rw [List.filter_cons_of_pos (by simpa using kind)]
      exact (Parallel.offer closed (by rintro _ ⟨⟩; exact kind) first).andThen rest'
    · rw [List.filter_cons_of_neg (by simpa using kind)]
      show Parallel e₀ k tied (SearchM.offerAll (b :: rest)) ((pure false : SearchM Collection Bool) >>=
        fun _ => SearchM.offerAll (rest.filter (·.kind == k)))
      exact (Parallel.offer_left (by rintro _ ⟨⟩; exact kind) first).andThen rest'

end Offers

end Parallel

end JavaScope
