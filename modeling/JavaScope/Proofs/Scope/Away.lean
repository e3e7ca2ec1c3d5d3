import JavaScope.Proofs.Scope.Growth
import JavaScope.Proofs.Scope.Levels
import JavaScope.Proofs.Scope.Locals
import JavaScope.Proofs.Scope.Recorder
import JavaScope.Proofs.Scope.Walk

/-!
# Walks away from a local declaration

A walk over a member of a type offers the binding of a local variable or a local type only where it
comes to its declaration. What it offers elsewhere are other declarations, and constants of enums.
-/

namespace JavaScope

namespace LocalWalk

/-! ## How often levels offer a binding -/

section Records

variable {I : Environment → Prop} {fails : Fault → Prop} {b : BindingId}

theorem Records.composes : Composes (Records I fails b 0) where
  pure := .pure
  orElse h h' := h.orElse h'

theorem Records.carries (k : Nat) : Carries (Records I fails b 0) (Records I fails b k) where
  toComposes := Records.composes
  left h h' := h.orElse_left h'
  right h h' := h.orElse_right h'

end Records

/-! ## Away from the declaration -/

/-- Telling the type of the expression that a `switch` is on fails, for a label that holds the
position. -/
def LabelFails (typeOf : Typing) (p : ScopePoint) (e₀ : Environment) (declaration : Node)
    (f : Fault) : Prop :=
  ∃ label ∈ declaration.preorder, label.kind = .switchLabel ∧ p.isInside label = true ∧
    ∃ condition, label.switchCondition = some condition ∧
      ∃ e, e₀.Grows e ∧ (outcome (typeOf condition) e).1 = .error f

/-- A walk over a member in a Java tree, at which a local declaration is watched. Nodes declare for the
walk what they declare in the environment. The walk goes below the parameters of a lambda expression
if the declaration stands there. -/
structure Watch (typeOf : Typing) (p : ScopePoint) (c : Context) (e₀ : Environment)
    (body around v : Node) (b : BindingId) : Prop extends LeadsAlone c e₀ around v b where
  keeps : ∀ n, Keeps e₀.Grows (typeOf n)
  unit : p.unit = c.unit
  bindings : p.bindingOf = e₀.bindingOf
  within : body ∈ c.unit.tree.root.preorder
  enters : ∀ list ∈ body.preorder, list.field = some .parameters → around ∈ list.preorder →
    p.flags.vars = true

namespace Watch

variable {typeOf : Typing} {p : ScopePoint} {c : Context} {e₀ : Environment}
  {body around v n : Node} {b : BindingId} (watch : Watch typeOf p c e₀ body around v b)

/-- The search offers the watched binding `k` times. It fails at labels only, and these are looked at
for variables only. -/
abbrev Sees (_ : Watch typeOf p c e₀ body around v b) (k : Nat)
    (search : SearchM Recorder Bool) : Prop :=
  Records e₀.Grows (fun f => p.flags.vars = true ∧ LabelFails typeOf p e₀ body f) b k search

/-- The walk at a node offers the watched binding `k` times. -/
abbrev Offers (k : Nat) (n : Node) : Prop :=
  watch.Sees k (run typeOf p n)

include watch

/-- What another node declares is not the watched binding. -/
theorem offer (hn : n ∈ c.unit.tree.root.preorder) (other : n ≠ v)
    (asked : p.asksFor n.kind = true) : watch.Sees 0 (SearchM.offer (p.bindingOf n)) := by
  apply Records.offer_other
  rw [watch.bindings]
  refine watch.node_ne n hn other ?_
  simp only [ScopePoint.asksFor, Bool.or_eq_true, Bool.and_eq_true] at asked
  exact asked.imp And.right And.right

/-- A name below another node than the declaration is not the watched binding. -/
theorem offer_name (hn : n ∈ c.unit.tree.root.preorder) (other : n ≠ v) {d : Node}
    (hd : d ∈ n.children) (name : d.kind = .identifier) :
    watch.Sees 0 (SearchM.offer (p.bindingOf d)) := by
  apply Records.offer_other
  rw [watch.bindings]
  exact watch.name_ne n hn other d hd name

/-- The constants at a label are no local declarations. -/
theorem labelConstants (hn : n ∈ body.preorder) (kind : n.kind = .switchLabel)
    (vars : p.flags.vars = true) (inside : p.isInside n = true) :
    watch.Sees 0 (LocalWalk.labelConstants typeOf n) := by
  unfold LocalWalk.labelConstants
  split
  · exact .pure
  · next switch around =>
    split
    · exact .pure
    · next condition field =>
      apply Records.lift_bind (watch.keeps condition)
      · intro e f he failed
        refine ⟨vars, n, hn, kind, inside, condition, ?_, e, he, failed⟩
        rw [Node.switchCondition, around]
        exact field
      · intro t
        cases t with
        | none => exact .pure
        | some t =>
          apply Records.read_bind
          intro e he
          split
          · apply Records.composes.anyM
            intro constant hconstant
            obtain ⟨w, hw, rfl⟩ := List.mem_map.1 hconstant
            apply Records.offer_other
            intro same
            exact watch.constant_ne e he t w hw (Option.some.inj same)
          · exact .pure

/-- One level of a walk does not offer the binding if the walks two levels below do not, nor the
declaration stands here. -/
theorem level_zero (hn : n ∈ body.preorder) (other : n ≠ v) (others : ∀ d ∈ n.children, d ≠ v)
    (h : ∀ d ∈ n.children, watch.Offers 0 d)
    (h' : ∀ d ∈ n.children, ∀ d' ∈ d.children, watch.Offers 0 d') :
    watch.Sees 0 (level typeOf p n) := by
  have hroot : n ∈ c.unit.tree.root.preorder := Node.mem_preorder_trans watch.within hn
  apply Records.composes.level h fun d hd _ => h' d hd
  · intro asked _
    exact watch.offer hroot other asked
  · exact watch.labelConstants hn
  · intro _ _ _ list below _
    apply Records.composes.lambdaParameters _ (h' list below)
    rintro d (rfl | hd) name
    · exact watch.offer_name hroot other below name
    · have hlist := Node.mem_preorder_of_mem_children hroot below
      exact watch.offer_name hlist (others list below) (List.mem_filter.1 hd).1 name

/-- The walk at a node that the declaration is not below does not offer the binding. -/
theorem offers_zero (hn : n ∈ body.preorder) (away : v ∉ n.preorder) : watch.Offers 0 n := by
  -- some levels of a walk reach two levels down, so the fact is kept for the nodes below as well
  have both : watch.Offers 0 n ∧ ∀ d ∈ n.children, watch.Offers 0 d := by
    induction n using Node.induction with
    | h n ih =>
      have away' : ∀ d ∈ n.children, v ∉ d.preorder :=
        fun d hd hv => away (Node.mem_preorder_of_child hd hv)
      have below : ∀ d ∈ n.children, watch.Offers 0 d ∧
          ∀ d' ∈ d.children, watch.Offers 0 d' :=
        fun d hd => ih d hd (Node.mem_preorder_of_mem_children hn hd) (away' d hd)
      refine ⟨?_, fun d hd => (below d hd).1⟩
      by_cases named : n.isNamed = true
      · rw [Offers, run_eq_level typeOf p n named]
        apply watch.level_zero hn
        · rintro rfl
          exact away (Node.mem_preorder_self _)
        · rintro d hd rfl
          exact away' _ hd (Node.mem_preorder_self _)
        · exact fun d hd => (below d hd).1
        · exact fun d hd => (below d hd).2
      · rw [Offers, run_of_not_named typeOf p n (by simpa using named)]
        exact .pure
  exact both.1

end Watch

end LocalWalk

end JavaScope
