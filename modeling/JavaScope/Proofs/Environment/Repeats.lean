import JavaScope.Proofs.Environment.Declared
import JavaScope.Proofs.Environment.Growth

/-!
# Repeated actions

What an action makes on the way is filed, so an action that has answered once finds it again. Run in
an environment that has grown from the one it left behind, it answers as before. Only a wildcard is
made anew each time; one of them is as good as the other.

`Repeats` says this of a run, with a rule for every way in which actions are put together.
-/

namespace JavaScope

/-! ## Environments in states -/

/-- A state with an environment that can be exchanged, and what it means that nothing in the state
dangles. -/
class HasEnvironment (σ : Type) where
  environment : σ → Environment
  exchange : σ → Environment → σ
  IsStored : σ → Prop
  closed : ∀ s, IsStored s → (environment s).Closed

export HasEnvironment (environment exchange IsStored)

instance : HasEnvironment Environment where
  environment e := e
  exchange _ e := e
  IsStored := Environment.Closed
  closed _ h := h

@[simp] theorem environment_self (e : Environment) : environment e = e := rfl

@[simp] theorem exchange_self (e e₂ : Environment) : exchange e e₂ = e₂ := rfl

/-- Nothing dangles in the first environment, and the second one has grown from it. -/
structure Environment.Agrees (e e₂ : Environment) : Prop where
  closed : e.Closed
  grown : e.Grows e₂

section Actions

variable {σ α β : Type} [HasEnvironment σ]

/-- The action only lets the environment grow. -/
class Growing (a : Action σ α) : Prop where
  grows : ∀ s, (environment s).Grows (environment (outcome a s).2)

/-- Where nothing dangles, the first action leaves nothing dangling. Where it answers, the second one
answers in every environment that has grown from the one that the first leaves behind. The answers
are related, the rest of the states is the same. -/
def Repeats (s : σ) (e₂ : Environment) (a a' : Action σ α)
    (Q : α → α → Environment → Environment → Prop) : Prop :=
  IsStored s → (environment (outcome a s).2).Grows e₂ →
    IsStored (outcome a s).2 ∧
      ∀ x s', outcome a s = (.ok x, s') → ∃ x' e₂', outcome a' (exchange s e₂) =
        (.ok x', exchange s' e₂') ∧ e₂.Grows e₂' ∧ Q x x' (environment s') e₂'

/-! ## Growing actions -/

namespace Growing

theorem of_keeps {a : EnvironmentM α} (h : ∀ e : Environment, Keeps e.Grows a) : Growing a :=
  ⟨fun e => h e e (.refl e)⟩

theorem keeps (a : EnvironmentM α) [Growing a] (e : Environment) : Keeps e.Grows a :=
  fun e' h => h.trans (grows e')

instance pure (x : α) : Growing (pure x : Action σ α) :=
  ⟨fun _ => .refl _⟩

instance throw (f : Fault) : Growing (throw f : Action σ α) :=
  ⟨fun _ => .refl _⟩

instance get : Growing (get : Action σ σ) :=
  ⟨fun _ => .refl _⟩

instance ofExcept (v : Except Fault α) : Growing (ofExcept v : Action σ α) := by
  cases v with
  | error f => exact throw f
  | ok x => exact pure x

instance read (f : Environment → α) : Growing (EnvironmentM.read f) :=
  ⟨fun _ => .refl _⟩

instance bind (a : Action σ α) (f : α → Action σ β) [Growing a] [∀ x, Growing (f x)] :
    Growing (a >>= f) where
  grows s := by
    rw [outcome_bind]
    rcases ran : outcome a s with ⟨x | x, s₁⟩
    · have first := grows (a := a) s
      rw [ran] at first
      exact first
    · have first := grows (a := a) s
      rw [ran] at first
      exact first.trans (grows s₁)

instance ite {c : Prop} [Decidable c] (a b : Action σ α) [Growing a] [Growing b] :
    Growing (if c then a else b) := by
  split <;> infer_instance

end Growing

/-! ## Repeated actions, put together -/

namespace Repeats

variable {s : σ} {e₂ : Environment} {Q : α → α → Environment → Environment → Prop}
  {R : β → β → Environment → Environment → Prop}

/-- An action that always answers is repeated if its answer is. -/
theorem of_answer {a a' : Action σ α} {x : α} {s' : σ} (run : outcome a s = (.ok x, s'))
    (h : IsStored s → (environment s').Grows e₂ → IsStored s' ∧
      ∃ x' e₂', outcome a' (exchange s e₂) = (.ok x', exchange s' e₂') ∧ e₂.Grows e₂' ∧
        Q x x' (environment s') e₂') : Repeats s e₂ a a' Q := by
  intro stored grown
  rw [run] at grown ⊢
  obtain ⟨stored', again⟩ := h stored grown
  refine ⟨stored', ?_⟩
  rintro _ _ ⟨⟩
  exact again

/-- The first run may be compared with what the second one starts from. -/
theorem of_agrees {a a' : Action σ α} [Growing a]
    (h : (environment s).Agrees e₂ → Repeats s e₂ a a' Q) : Repeats s e₂ a a' Q :=
  fun stored grown =>
    h ⟨HasEnvironment.closed s stored, (Growing.grows s).trans grown⟩ stored grown

/-- Nothing dangles after an action that is repeated later. -/
theorem stored {a a' : Action σ α} (h : ∀ e₂, Repeats s e₂ a a' Q) (stored : IsStored s) :
    IsStored (outcome a s).2 :=
  (h _ stored (.refl _)).1

protected theorem pure {x x' : α} (h : (environment s).Agrees e₂ → Q x x' (environment s) e₂) :
    Repeats s e₂ (pure x) (pure x') Q :=
  .of_answer rfl fun stored grown =>
    ⟨stored, x', e₂, rfl, .refl _, h ⟨HasEnvironment.closed s stored, grown⟩⟩

protected theorem throw {f : Fault} {a' : Action σ α} : Repeats s e₂ (throw f) a' Q :=
  fun stored _ => ⟨stored, nofun⟩

theorem get_bind {f f' : σ → Action σ α} (h : Repeats s e₂ (f s) (f' (exchange s e₂)) Q) :
    Repeats s e₂ (get >>= f) (get >>= f') Q := by
  unfold Repeats
  rw [outcome_bind_of_ok (outcome_get s), outcome_bind_of_ok (outcome_get _)]
  exact h

theorem ofExcept_bind {v v' : Except Fault α} {f f' : α → Action σ β}
    (h : ∀ x, v = .ok x → ∃ x', v' = .ok x' ∧ Repeats s e₂ (f x) (f' x') R) :
    Repeats s e₂ (ofExcept v >>= f) (ofExcept v' >>= f') R := by
  cases v with
  | error fault => exact fun stored _ => ⟨stored, nofun⟩
  | ok x =>
    obtain ⟨x', rfl, again⟩ := h x rfl
    exact again

protected theorem bind {a a' : Action σ α} {f f' : α → Action σ β}
    (grows : ∀ x, Growing (f x)) (ha : Repeats s e₂ a a' Q)
    (hf : ∀ x x' s₁ e₃, (environment s).Grows (environment s₁) → e₂.Grows e₃ →
      (environment s₁).Agrees e₃ → Q x x' (environment s₁) e₃ → Repeats s₁ e₃ (f x) (f' x') R)
    [Growing a] : Repeats s e₂ (a >>= f) (a' >>= f') R := by
  intro stored grown
  have before := Growing.grows (a := a) s
  unfold Repeats at ha
  rcases first : outcome a s with ⟨fault | x, s₁⟩
  · rw [first] at ha
    rw [outcome_bind_of_error first] at grown ⊢
    exact ⟨(ha stored grown).1, nofun⟩
  · rw [first] at before ha
    rw [outcome_bind_of_ok first] at grown ⊢
    have after := ((grows x).grows s₁).trans grown
    obtain ⟨stored₁, again⟩ := ha stored after
    obtain ⟨x', e₃, first', grown₃, related⟩ := again x s₁ rfl
    have agrees : (environment s₁).Agrees e₃ :=
      ⟨HasEnvironment.closed s₁ stored₁, after.trans grown₃⟩
    obtain ⟨stored', again'⟩ :=
      hf x x' s₁ e₃ before grown₃ agrees related stored₁ (grown.trans grown₃)
    refine ⟨stored', fun y s' rest => ?_⟩
    obtain ⟨y', e', rest', grown', related'⟩ := again' y s' rest
    refine ⟨y', e', ?_, grown₃.trans grown', related'⟩
    rw [outcome_bind_of_ok first']
    exact rest'

/-- What is made of both answers alike stays related. -/
theorem bind_pure {a a' : Action σ α} {f f' : α → β} [Growing a] (ha : Repeats s e₂ a a' Q)
    (h : ∀ x x' e e', Q x x' e e' → R (f x) (f' x') e e') :
    Repeats s e₂ (do return f (← a)) (do return f' (← a')) R :=
  ha.bind (fun _ => inferInstance) fun x x' _ _ _ _ _ related => .pure fun _ => h x x' _ _ related

/-- Nothing dangles after two actions of which the first one is repeated later. -/
theorem stored_bind {a a' : Action σ α} {f : α → Action σ β} (ha : ∀ e₂, Repeats s e₂ a a' Q)
    (hf : ∀ x x' s₁ e₃, (environment s).Grows (environment s₁) → IsStored s₁ →
      Q x x' (environment s₁) e₃ → IsStored (outcome (f x) s₁).2)
    (stored : IsStored s) [Growing a] : IsStored (outcome (a >>= f) s).2 := by
  have grown := Growing.grows (a := a) s
  unfold Repeats at ha
  rcases first : outcome a s with ⟨fault | x, s₁⟩
  · rw [first] at ha
    rw [outcome_bind_of_error first]
    exact (ha _ stored (.refl _)).1
  · rw [first] at grown ha
    rw [outcome_bind_of_ok first]
    obtain ⟨stored₁, again⟩ := ha _ stored (.refl _)
    obtain ⟨x', e₃, -, -, related⟩ := again x s₁ rfl
    exact hf x x' s₁ e₃ grown stored₁ related

protected theorem ite {c : Prop} [Decidable c] {a b a' b' : Action σ α}
    (ha : c → Repeats s e₂ a a' Q) (hb : ¬c → Repeats s e₂ b b' Q) :
    Repeats s e₂ (if c then a else b) (if c then a' else b') Q := by
  split
  · next hc => exact ha hc
  · next hc => exact hb hc

end Repeats

end Actions

theorem Repeats.read_bind {α β : Type} {e e₂ : Environment}
    {R : β → β → Environment → Environment → Prop} {g : Environment → α}
    {f f' : α → EnvironmentM β} (h : Repeats e e₂ (f (g e)) (f' (g e₂)) R) :
    Repeats e e₂ (EnvironmentM.read g >>= f) (EnvironmentM.read g >>= f') R :=
  h

end JavaScope
