import JavaScope.Scope.Search
import JavaScope.Proofs.Action

/-!
# Recorded searches

A request that never stops and keeps what it is offered shows the whole of a search. How often a
search offers a binding adds up over its parts.
-/

namespace JavaScope

/-- A request that never stops, with the candidates it was offered. -/
structure Recorder where
  offered : List (Option BindingId)

namespace Recorder

instance : Request Recorder where
  accept _ candidate := do
    modify fun r => ⟨r.offered ++ [candidate]⟩
    return false

/-- A request that was offered nothing yet. -/
def empty : Recorder :=
  ⟨[]⟩

/-- How often a binding was offered. -/
def times (r : Recorder) (b : BindingId) : Nat :=
  r.offered.count (some b)

@[simp] theorem times_empty (b : BindingId) : empty.times b = 0 := rfl

end Recorder

/-- Where a recorded search that offers a binding `k` times may end: it answers after `k` offers, or
it fails in an admitted way after at most as many. -/
def EndsAfter (fails : Fault → Prop) (b : BindingId) (k : Nat) (r : Recorder) :
    Except Fault Bool → Recorder → Prop
  | .ok stopped, r' => stopped = false ∧ r'.times b = r.times b + k
  | .error f, r' => fails f ∧ r'.times b ≤ r.times b + k

/-- From every environment with `I`, the search offers the binding `k` times, unless it fails in an
admitted way. Environments on the way have `I`. -/
def Records (I : Environment → Prop) (fails : Fault → Prop) (b : BindingId) (k : Nat)
    (search : SearchM Recorder Bool) : Prop :=
  ∀ e r, I e → ∃ answer e' r', outcome search ⟨e, r⟩ = (answer, ⟨e', r'⟩) ∧ I e' ∧
    EndsAfter fails b k r answer r'

namespace Records

variable {I : Environment → Prop} {fails : Fault → Prop} {b : BindingId} {k k' : Nat}
  {search search' : SearchM Recorder Bool}

protected theorem pure : Records I fails b 0 (pure false) := by
  intro e r he
  exact ⟨.ok false, e, r, rfl, he, rfl, rfl⟩

theorem offer (candidate : Option BindingId) :
    Records I fails b (if candidate = some b then 1 else 0) (SearchM.offer candidate) := by
  intro e r he
  refine ⟨.ok false, e, ⟨r.offered ++ [candidate]⟩, rfl, he, rfl, ?_⟩
  show (r.offered ++ [candidate]).count (some b) = r.offered.count (some b) + _
  rw [List.count_append, List.count_singleton]
  by_cases hit : candidate = some b <;> simp [hit]

theorem offer_other {candidate : Option BindingId} (h : candidate ≠ some b) :
    Records I fails b 0 (SearchM.offer candidate) := by
  have offered : Records I fails b _ (SearchM.offer candidate) := offer candidate
  rwa [if_neg h] at offered

theorem orElse (h : Records I fails b k search) (h' : Records I fails b k' search') :
    Records I fails b (k + k') (do
      if ← search then return true
      search') := by
  intro e r he
  obtain ⟨answer, e₁, r₁, first, he₁, ends⟩ := h e r he
  cases answer with
  | error f =>
    obtain ⟨hf, few⟩ := ends
    exact ⟨.error f, e₁, r₁, outcome_bind_of_error first _, he₁, hf, by omega⟩
  | ok stopped =>
    obtain ⟨rfl, times⟩ := ends
    obtain ⟨answer, e₂, r₂, second, he₂, ends⟩ := h' e₁ r₁ he₁
    refine ⟨answer, e₂, r₂, ?_, he₂, ?_⟩
    · rw [outcome_bind_of_ok first]
      exact second
    · cases answer with
      | error f =>
        obtain ⟨hf, few⟩ := ends
        exact ⟨hf, by omega⟩
      | ok stopped =>
        obtain ⟨rfl, times'⟩ := ends
        exact ⟨rfl, by omega⟩

/-- The binding is offered by the first of two searches, if at all. -/
theorem orElse_left (h : Records I fails b k search)
    (h' : Records I fails b 0 search') : Records I fails b k (do
      if ← search then return true
      search') := by
  have both := h.orElse h'
  rwa [Nat.add_zero] at both

/-- The binding is offered by the second of two searches, if at all. -/
theorem orElse_right (h : Records I fails b 0 search)
    (h' : Records I fails b k search') : Records I fails b k (do
      if ← search then return true
      search') := by
  have both := h.orElse h'
  rwa [Nat.zero_add] at both

theorem read_bind {α : Type} {f : Environment → α} {g : α → SearchM Recorder Bool}
    (h : ∀ e, I e → Records I fails b k (g (f e))) :
    Records I fails b k (SearchM.read f >>= g) := by
  intro e r he
  exact h e he e r he

/-- An action on the environment offers nothing. -/
theorem lift_bind {α : Type} {action : EnvironmentM α} {g : α → SearchM Recorder Bool}
    (keeps : Keeps I action)
    (admitted : ∀ e f, I e → (outcome action e).1 = .error f → fails f)
    (h : ∀ a, Records I fails b k (g a)) : Records I fails b k (SearchM.lift action >>= g) := by
  intro e r he
  have he' := keeps e he
  have lifted : outcome (SearchM.lift action : SearchM Recorder α) ⟨e, r⟩ =
      ((outcome action e).1, ⟨(outcome action e).2, r⟩) := rfl
  cases answer : (outcome action e).1 with
  | error f =>
    rw [answer] at lifted
    exact ⟨.error f, _, r, outcome_bind_of_error lifted _, he', admitted e f he answer,
      Nat.le_add_right _ _⟩
  | ok a =>
    rw [answer] at lifted
    rw [outcome_bind_of_ok lifted]
    exact h a _ r he'

end Records

end JavaScope
