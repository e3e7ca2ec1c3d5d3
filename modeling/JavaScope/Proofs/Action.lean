import JavaScope.Fault

/-!
# Actions that outlive a fault

Passes and queries act on a state, and the state that they leave counts also after a fault.
`outcome` runs an action; `Keeps` says that an action preserves an invariant, whatever it answers;
`Ensures` is a triple about the runs that answer. Both have one rule for every way in which actions
are put together.
-/

namespace JavaScope

/-- An action on a state, which outlives a fault. -/
abbrev Action (σ : Type) := ExceptT Fault (StateM σ)

variable {σ α β : Type}

/-- The answer of an action from a state, and the state after it. -/
def outcome (action : Action σ α) (s : σ) : Except Fault α × σ :=
  action.run.run s

/-! ## Outcomes -/

@[simp] theorem outcome_pure (a : α) (s : σ) : outcome (pure a : Action σ α) s = (.ok a, s) := rfl

@[simp] theorem outcome_get (s : σ) : outcome (get : Action σ σ) s = (.ok s, s) := rfl

@[simp] theorem outcome_set (s s' : σ) : outcome (set s' : Action σ PUnit) s = (.ok ⟨⟩, s') := rfl

@[simp] theorem outcome_modify (f : σ → σ) (s : σ) :
    outcome (modify f : Action σ PUnit) s = (.ok ⟨⟩, f s) := rfl

@[simp] theorem outcome_ofExcept (x : Except Fault α) (s : σ) :
    outcome (ofExcept x : Action σ α) s = (x, s) := by
  cases x <;> rfl

theorem outcome_bind (a : Action σ α) (f : α → Action σ β) (s : σ) :
    outcome (a >>= f) s =
      match outcome a s with
      | (.ok x, s') => outcome (f x) s'
      | (.error e, s') => (.error e, s') := by
  show (StateT.run (ExceptT.run (a >>= f)) s) = _
  rw [ExceptT.run_bind]
  show (match StateT.run (ExceptT.run a) s with | (x, s') => _) = _
  rcases h : StateT.run (ExceptT.run a) s with ⟨x | x, s'⟩ <;> simp [outcome, h] <;> rfl

theorem outcome_bind_of_ok {a : Action σ α} {x : α} {s s' : σ} (h : outcome a s = (.ok x, s'))
    (f : α → Action σ β) : outcome (a >>= f) s = outcome (f x) s' := by
  rw [outcome_bind, h]

theorem outcome_bind_of_error {a : Action σ α} {e : Fault} {s s' : σ}
    (h : outcome a s = (.error e, s')) (f : α → Action σ β) :
    outcome (a >>= f) s = (.error e, s') := by
  rw [outcome_bind, h]

/-- A sequence answers exactly when both parts do. -/
theorem outcome_bind_eq_ok {a : Action σ α} {f : α → Action σ β} {s s' : σ} {y : β} :
    outcome (a >>= f) s = (.ok y, s') ↔
      ∃ x s₁, outcome a s = (.ok x, s₁) ∧ outcome (f x) s₁ = (.ok y, s') := by
  rw [outcome_bind]
  rcases outcome a s with ⟨x | x, s₁⟩
  · simp
  · constructor
    · intro h
      exact ⟨x, s₁, rfl, h⟩
    · rintro ⟨_, _, ⟨⟩, h⟩
      exact h

theorem outcome_map_snd (f : α → β) (a : Action σ α) (s : σ) :
    (outcome (f <$> a) s).2 = (outcome a s).2 := by
  rw [map_eq_pure_bind, outcome_bind]
  rcases outcome a s with ⟨x | x, s₁⟩ <;> rfl

theorem outcome_ofExcept_bind_eq_ok {x : Except Fault α} {f : α → Action σ β} {s s' : σ} {y : β} :
    outcome (ofExcept x >>= f) s = (.ok y, s') ↔
      ∃ a, x = .ok a ∧ outcome (f a) s = (.ok y, s') := by
  rw [outcome_bind, outcome_ofExcept]
  cases x with
  | error e => simp
  | ok a => simp

/-! ## Invariants -/

/-- The action preserves an invariant, also when it fails. -/
def Keeps (I : σ → Prop) (a : Action σ α) : Prop :=
  ∀ s, I s → I (outcome a s).2

namespace Keeps

variable {I : σ → Prop}

protected theorem pure (a : α) : Keeps I (pure a : Action σ α) :=
  fun _ h => h

protected theorem throw (f : Fault) : Keeps I (throw f : Action σ α) :=
  fun _ h => h

protected theorem get : Keeps I (get : Action σ σ) :=
  fun _ h => h

protected theorem ofExcept (x : Except Fault α) : Keeps I (ofExcept x : Action σ α) := by
  intro s h
  rw [outcome_ofExcept]
  exact h

protected theorem modify {f : σ → σ} (hf : ∀ s, I s → I (f s)) :
    Keeps I (modify f : Action σ PUnit) :=
  fun s h => hf s h

protected theorem modifyGet {f : σ → α × σ} (hf : ∀ s, I s → I (f s).2) :
    Keeps I (modifyGet f : Action σ α) :=
  fun s h => hf s h

protected theorem bind {a : Action σ α} {f : α → Action σ β} (ha : Keeps I a)
    (hf : ∀ x, Keeps I (f x)) : Keeps I (a >>= f) := by
  intro s h
  have h₁ := ha s h
  rw [outcome_bind]
  revert h₁
  rcases outcome a s with ⟨e | x, s₁⟩
  · exact id
  · exact hf x s₁

/-- What follows a value that may be missing has to keep the invariant only for that value. -/
theorem ofExcept_bind {x : Except Fault α} {f : α → Action σ β}
    (hf : ∀ y, x = .ok y → Keeps I (f y)) : Keeps I (ofExcept x >>= f) := by
  cases x with
  | error e => exact .throw e
  | ok y => exact hf y rfl

protected theorem map (f : α → β) {a : Action σ α} (ha : Keeps I a) : Keeps I (f <$> a) := by
  rw [map_eq_pure_bind]
  exact ha.bind fun x => .pure (f x)

protected theorem ite {c : Prop} [Decidable c] {a b : Action σ α} (ha : Keeps I a)
    (hb : Keeps I b) : Keeps I (if c then a else b) := by
  split
  · exact ha
  · exact hb

protected theorem forM {xs : List α} {f : α → Action σ PUnit} (hf : ∀ x ∈ xs, Keeps I (f x)) :
    Keeps I (xs.forM f) := by
  induction xs with
  | nil => exact .pure _
  | cons x xs ih =>
    have hxs := ih fun y hy => hf y (List.mem_cons_of_mem x hy)
    exact (hf x List.mem_cons_self).bind fun _ => hxs

protected theorem mapM {xs : List α} {f : α → Action σ β} (hf : ∀ x ∈ xs, Keeps I (f x)) :
    Keeps I (xs.mapM f) := by
  induction xs with
  | nil => exact .pure _
  | cons x xs ih =>
    rw [List.mapM_cons]
    have hxs := ih fun y hy => hf y (List.mem_cons_of_mem x hy)
    exact (hf x List.mem_cons_self).bind fun y => hxs.bind fun ys => .pure (y :: ys)

protected theorem anyM {xs : List α} {f : α → Action σ Bool} (hf : ∀ x ∈ xs, Keeps I (f x)) :
    Keeps I (xs.anyM f) := by
  induction xs with
  | nil => exact .pure false
  | cons x xs ih =>
    have hxs := ih fun y hy => hf y (List.mem_cons_of_mem x hy)
    apply (hf x List.mem_cons_self).bind
    intro stopped
    cases stopped
    · exact hxs
    · exact .pure true

end Keeps

/-! ## Runs that answer -/

/-- Whenever the action answers from a state with `P`, its answer and the state after it have
`Q`. -/
def Ensures (P : σ → Prop) (a : Action σ α) (Q : α → σ → Prop) : Prop :=
  ∀ s, P s → ∀ x s', outcome a s = (.ok x, s') → Q x s'

namespace Ensures

variable {P : σ → Prop} {Q : α → σ → Prop} {R : β → σ → Prop}

protected theorem pure {a : α} (h : ∀ s, P s → Q a s) : Ensures P (pure a) Q := by
  rintro s hs _ _ ⟨⟩
  exact h s hs

protected theorem throw (f : Fault) : Ensures P (throw f) Q := by
  rintro s hs _ _ ⟨⟩

protected theorem get {Q : σ → σ → Prop} (h : ∀ s, P s → Q s s) : Ensures P get Q := by
  rintro s hs _ _ ⟨⟩
  exact h s hs

protected theorem ofExcept {x : Except Fault α} (h : ∀ s, P s → ∀ y, x = .ok y → Q y s) :
    Ensures P (ofExcept x) Q := by
  intro s hs y s' run
  rw [outcome_ofExcept] at run
  cases run
  exact h s hs y rfl

protected theorem modify {f : σ → σ} {Q : PUnit → σ → Prop} (h : ∀ s, P s → Q ⟨⟩ (f s)) :
    Ensures P (modify f) Q := by
  rintro s hs _ _ ⟨⟩
  exact h s hs

protected theorem modifyGet {f : σ → α × σ} (h : ∀ s, P s → Q (f s).1 (f s).2) :
    Ensures P (modifyGet f) Q := by
  rintro s hs _ _ ⟨⟩
  exact h s hs

protected theorem bind {a : Action σ α} {f : α → Action σ β} (ha : Ensures P a Q)
    (hf : ∀ x, Ensures (Q x) (f x) R) : Ensures P (a >>= f) R := by
  intro s hs y s' run
  obtain ⟨x, s₁, first, rest⟩ := outcome_bind_eq_ok.1 run
  exact hf x s₁ (ha s hs x s₁ first) y s' rest

theorem ofExcept_bind {x : Except Fault α} {f : α → Action σ β}
    (hf : ∀ y, x = .ok y → Ensures P (f y) R) : Ensures P (ofExcept x >>= f) R := by
  cases x with
  | error e =>
    intro s hs y s' run
    cases run
  | ok y => exact hf y rfl

theorem weaken {P' : σ → Prop} {Q' : α → σ → Prop} {a : Action σ α} (h : Ensures P a Q)
    (hP : ∀ s, P' s → P s) (hQ : ∀ x s, Q x s → Q' x s) : Ensures P' a Q' :=
  fun s hs x s' run => hQ x s' (h s (hP s hs) x s' run)

/-- Nothing is said about an action whose answer does not count. -/
theorem anything (P : σ → Prop) (a : Action σ α) : Ensures P a fun _ _ => True :=
  fun _ _ _ _ _ => trivial

/-- A fact that does not depend on the state can be taken out of the precondition. -/
theorem of_fact {p : Prop} {a : Action σ α} (h : p → Ensures P a Q) :
    Ensures (fun s => p ∧ P s) a Q :=
  fun s hs => h hs.1 s hs.2

protected theorem ite {c : Prop} [Decidable c] {a b : Action σ α} (ha : c → Ensures P a Q)
    (hb : ¬c → Ensures P b Q) : Ensures P (if c then a else b) Q := by
  split
  · next hc => exact ha hc
  · next hc => exact hb hc

protected theorem map (f : α → β) {a : Action σ α} (ha : Ensures P a fun x s => R (f x) s) :
    Ensures P (f <$> a) R := by
  rw [map_eq_pure_bind]
  exact ha.bind fun x => .pure fun s hs => hs

protected theorem forM {xs : List α} {f : α → Action σ PUnit}
    (hf : ∀ x ∈ xs, Ensures P (f x) fun _ => P) : Ensures P (xs.forM f) fun _ => P := by
  induction xs with
  | nil => exact .pure fun s hs => hs
  | cons x xs ih =>
    have hxs := ih fun y hy => hf y (List.mem_cons_of_mem x hy)
    exact (hf x List.mem_cons_self).bind fun _ => hxs

end Ensures

theorem Keeps.ensures {I : σ → Prop} {a : Action σ α} (h : Keeps I a) : Ensures I a fun _ => I := by
  intro s hs x s' run
  have kept := h s hs
  rw [run] at kept
  exact kept

end JavaScope
