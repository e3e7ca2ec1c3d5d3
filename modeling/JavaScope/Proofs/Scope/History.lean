import JavaScope.Proofs.Scope.Uses

/-!
# Histories of queries

Queries that are asked one after the other lead from one environment to another. Whatever they ask,
and whether they answer or fail, the environment only grows and nothing comes to dangle in it.
-/

namespace JavaScope

open Environment

namespace Scope

variable {e e' e'' : Environment}

/-! ## Queries leave nothing dangling -/

theorem repeats_inherited {st : Searching Collection} {e₂ : Environment} {t : TypeId} (flags : Flags)
    (has : st.environment.store.Has (.type t)) :
    let search : SearchM Collection Bool := do return (← collectInherited flags t []).1
    Repeats st e₂ search search SameAnswer := by
  refine (repeats_collectInherited flags has []).bind_pure ?_
  rintro found _ _ _ rfl
  rfl

theorem closed_declarationsAtName (n : Node) (flags : Flags) :
    Keeps Environment.Closed (declarationsAtName expressionType n flags) := by
  intro e closed
  have := growing_labelEnum isRepeatable_expressionType n
  have := growing_qualifierOf isRepeatable_expressionType (some n)
  refine Repeats.stored_bind (fun e₂ => repeats_labelEnum isRepeatable_expressionType n) ?_ closed
  rintro label _ (e₁ : Environment) - - (closed₁ : e₁.Closed) -
  cases label with
  | some t => exact closed₁
  | none =>
    show Environment.Closed (outcome (get >>= _) e₁).2
    rw [outcome_bind_of_ok (outcome_get e₁)]
    cases enclosing : e₁.enclosingType n with
    | none => exact closed₁
    | some around =>
      have has : e₁.store.Has (.type around) :=
        has_of_declares closed₁ (declares_enclosingType enclosing)
      refine Repeats.stored_bind
        (fun e₂ => repeats_qualifierOf isRepeatable_expressionType (some n)) ?_ closed₁
      rintro q q' (e₂ : Environment) e₃ grown (closed₂ : e₂.Closed) alike
      cases alike with
      | absent _ =>
        exact closed_collected rfl (fun _ => repeats_collectAtName isRepeatable_expressionType n flags
          (grown.store.has has)) closed₂
      | type alike => exact closed_collected rfl (fun _ => repeats_inherited flags alike.has) closed₂
      | unknown => exact closed_collected rfl (fun _ => .pure fun _ => rfl) closed₂

theorem closed_declarationsAfter (n : Node) (flags : Flags) (onlyAround : Bool) :
    Keeps Environment.Closed (declarationsAfter expressionType n flags onlyAround) := by
  intro e closed
  unfold declarationsAfter
  split
  · exact closed
  · next block _ =>
    rw [outcome_bind_of_ok (outcome_get e)]
    refine closed_collected rfl (fun e₂ => ?_) closed
    rw [search_lookLater]
    exact (IsRepeatedFrom.composes.anyM fun u _ => Use.isRepeatedFrom_offer closed u).repeats _ _
      (.refl e)

theorem closed_declarationsInUnit (l : Location) (flags : Flags) (n : Option Node) :
    Keeps Environment.Closed (declarationsInUnit l flags n) := by
  intro e closed
  unfold declarationsInUnit
  rw [outcome_bind_of_ok (outcome_get e)]
  dsimp only
  generalize (n.or (e.context.firstCovered l)).getD e.context.root = m
  have := growing_collectLocal isRepeatable_expressionType m l.start.offset flags
  have := growing_collectTypes isRepeatable_expressionType flags
  refine closed_collected rfl (fun e₂ => ?_) closed
  refine (repeats_collectLocal isRepeatable_expressionType m _ flags).bind (fun _ => ?_) ?_
  · cases e.enclosingType m <;> infer_instance
  rintro stopped _ st₁ e₃ grown - - rfl
  cases enclosing : e.enclosingType m with
  | none => exact .pure fun _ => rfl
  | some t =>
    have has : e.store.Has (.type t) := has_of_declares closed (declares_enclosingType enclosing)
    exact repeats_collectTypes isRepeatable_expressionType flags (grown.store.has has)

/-- Nothing comes to dangle in an environment of which the declarations in scope are asked. -/
theorem closed_declarationsInScope (selector : Selector) (flags : Flags) :
    Keeps Environment.Closed (declarationsInScope selector flags) := by
  cases selector with
  | node n => exact (Keeps.ofExcept _).bind fun n => closed_declarationsAtName n flags
  | location l =>
    refine Keeps.bind (a := selectedNode l) (keeps_read _) fun n => ?_
    cases n with
    | none => exact .pure []
    | some n =>
      refine .ite (closed_declarationsAtName n flags) (.ite ?_ (.ite ?_ (.pure [])))
      · exact Keeps.get.bind fun _ => (closed_declarationsAfter n flags false).bind fun _ =>
          (closed_declarationsAfter n flags true).bind fun _ => .pure _
      · exact closed_declarationsInUnit l flags (some n)

/-! ## Histories -/

/-- The second environment is what is left of the first one after some queries: for the declarations
in scope, for what a name refers to and for the type of an expression. -/
inductive History (e : Environment) : Environment → Prop
  | start : History e e
  | listed {e' : Environment} (selector : Selector) (flags : Flags) :
      History e e' → History e (outcome (declarationsInScope selector flags) e').2
  | resolved {e' : Environment} (n : Node) :
      History e e' → History e (outcome (resolve expressionType n) e').2
  | typed {e' : Environment} (n : Node) :
      History e e' → History e (outcome (expressionType n) e').2

namespace History

theorem grows (history : History e e') : e.Grows e' := by
  induction history with
  | start => exact .refl e
  | listed selector flags _ ih => exact keeps_declarationsInScope selector flags _ ih
  | resolved n _ ih => exact keeps_resolve keeps_expressionType n _ ih
  | typed n _ ih => exact keeps_expressionType n _ ih

theorem closed (history : History e e') (closed : e.Closed) : e'.Closed := by
  induction history with
  | start => exact closed
  | listed selector flags _ ih => exact closed_declarationsInScope selector flags _ ih
  | resolved n _ ih =>
    exact Repeats.stored (fun _ => repeats_resolve isRepeatable_expressionType n) ih
  | typed n _ ih => exact Repeats.stored (fun _ => (isRepeatable_expressionType n).repeats _ _) ih

/-- A query for the declarations in scope that has answered goes on the history. -/
theorem answered {selector : Selector} {flags : Flags} {ds : List BindingId}
    (history : History e e')
    (run : outcome (declarationsInScope selector flags) e' = (.ok ds, e'')) : History e e'' := by
  have listed := history.listed selector flags
  rwa [run] at listed

end History

end Scope

end JavaScope
