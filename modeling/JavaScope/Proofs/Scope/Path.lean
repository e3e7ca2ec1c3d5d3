import JavaScope.Proofs.Scope.Away
import JavaScope.Proofs.Unit.Order

/-!
# Walks on the path to a local declaration

A path leads from a member of a type to a local declaration. On this path every level of a walk over
the member hands on what the level below offers, and what stands beside the path adds nothing. So the
binding of the declaration is offered as often as at the end of the path.
-/

namespace JavaScope

namespace LocalWalk

namespace Watch

variable {typeOf : Typing} {p : ScopePoint} {c : Context} {e₀ : Environment}
  {body around v n m : Node} {b : BindingId} {k : Nat}
  (watch : Watch typeOf p c e₀ body around v b)

/-! ## Positions on the path -/

section Positions

variable {x y : Node}

include watch

theorem startsBefore_of_below (hx : x ∈ body.preorder) (below : y ∈ x.preorder)
    (late : p.startsBefore x = false) : p.startsBefore y = false := by
  by_contra begun
  have java := watch.java
  have hx := Node.mem_preorder_trans watch.within hx
  rw [← watch.unit] at java hx
  rw [p.startsBefore_of_below java.isNested hx below (by simpa using begun)] at late
  cases late

theorem isInside_of_below (hx : x ∈ body.preorder) (below : y ∈ x.preorder)
    (outside : p.isInside x = false) : p.isInside y = false := by
  by_contra inside
  have java := watch.java
  have hx := Node.mem_preorder_trans watch.within hx
  rw [← watch.unit] at java hx
  rw [p.isInside_of_below java.isNested hx below (by simpa using inside)] at outside
  cases outside

end Positions

/-! ## A step of the path -/

/-- A path through the member to the node around the declaration goes from one node to the next. -/
structure Passes (_ : Watch typeOf p c e₀ body around v b) (n m : Node) : Prop where
  within : n ∈ body.preorder
  leads : n.Leads m
  reaches : m.Reaches around

namespace Passes

variable {watch} (passes : watch.Passes n m)

include passes

theorem mem_root : n ∈ c.unit.tree.root.preorder :=
  Node.mem_preorder_trans watch.within passes.within

theorem declared_below : v ∈ m.preorder :=
  Node.mem_preorder_of_mem_children passes.reaches.mem_preorder watch.child

theorem ne_declared : n ≠ v := by
  rintro rfl
  have down := Node.mem_preorder_of_child passes.leads.below passes.reaches.mem_preorder
  exact Node.not_mem_preorder_of_mem_children watch.child down

theorem code : ¬ m.IsInert ∧ n.mayHoldCode m = true :=
  watch.java.mayHoldCode_of_leads passes.mem_root passes.leads passes.reaches watch.active

/-- The declaration is not below the nodes beside the path. -/
theorem offers_zero_beside {d : Node} (hd : d ∈ n.children) (other : d ≠ m) :
    watch.Offers 0 d := by
  apply watch.offers_zero (Node.mem_preorder_of_mem_children passes.within hd)
  intro hv
  exact other (Node.eq_of_mem_preorder hd passes.leads.below hv passes.declared_below)

theorem offers_zero_below {d d' : Node} (hd : d ∈ n.children) (other : d ≠ m)
    (hd' : d' ∈ d.children) : watch.Offers 0 d' := by
  have within := Node.mem_preorder_of_mem_children passes.within hd
  apply watch.offers_zero (Node.mem_preorder_of_mem_children within hd')
  intro hv
  have hv' := Node.mem_preorder_of_child hd' hv
  exact other (Node.eq_of_mem_preorder hd passes.leads.below hv' passes.declared_below)

/-- The walk may leave out the node at which the step ends if nothing is to be offered then. -/
theorem stepsTo (h : watch.Offers k m) (late : p.startsBefore m = false → k = 0) :
    StepsTo typeOf p (watch.Sees 0) (watch.Sees k) n m where
  fits := watch.java.fits n passes.mem_root
  nodup := watch.java.nodup_children passes.mem_root
  leads := passes.leads
  code := passes.code
  carried := h
  beside d hd other := passes.offers_zero_beside hd other
  late _ early a ha := by
    rw [late early]
    exact ha

end Passes

/-! ## A level of the walk on the path -/

/-- A step of the path, with what the walk offers at its end or, below a list, one step further. The
walk is to offer nothing if the declaration starts late. -/
structure HandsOn (k : Nat) (n m : Node) : Prop extends watch.Passes n m where
  offers : watch.Offers k m
  late : p.startsBefore v = false → k = 0
  onward : isList m.kind = true → ∃ d, watch.Passes m d ∧ watch.Offers k d

namespace HandsOn

variable {watch} (hands : watch.HandsOn k n m)

include hands

theorem handsOver : HandsOver typeOf p (watch.Sees 0) (watch.Sees k) n m where
  toStepsTo := hands.stepsTo hands.offers fun late => hands.late <|
    watch.startsBefore_of_below (Node.mem_preorder_of_mem_children hands.within hands.leads.below)
      hands.declared_below late
  inner d hd other _ d' hd' := hands.offers_zero_below hd other hd'
  onward list := by
    obtain ⟨d, next, offers⟩ := hands.onward list
    exact ⟨d, next.stepsTo offers fun late => hands.late <|
      watch.startsBefore_of_below (Node.mem_preorder_of_mem_children next.within next.leads.below)
        next.declared_below late⟩
  names kind list below _ d here name := by
    have other : list ≠ v := by
      rintro rfl
      exact watch.plain (Node.eq_of_mem_children watch.child below ▸ kind)
    rcases here with rfl | hd
    · exact watch.offer_name hands.mem_root hands.ne_declared below name
    · have hlist := Node.mem_preorder_of_mem_children hands.mem_root below
      exact watch.offer_name hlist other (List.mem_filter.1 hd).1 name

/-- One level of a walk on the path hands on what the next level offers. -/
theorem sees_level (field : n.kind.isFieldDeclaration = false)
    (held : p.isInside n = false → k = 0) : watch.Sees k (level typeOf p n) := by
  apply hands.handsOver.level (Records.carries k) _ field
  · intro outside a ha
    rw [held outside]
    exact ha
  · exact watch.offer hands.mem_root hands.ne_declared
  · intro _ parameters
    have hm := Node.mem_preorder_of_mem_children hands.within hands.leads.below
    exact watch.enters m hm parameters hands.reaches.mem_preorder

end HandsOn

/-- A step that ends at no list hands on what the walk offers at its end. -/
theorem handsOn (passes : watch.Passes n m) (h : watch.Offers k m) (plain : isList m.kind = false)
    (late : p.startsBefore v = false → k = 0) : watch.HandsOn k n m where
  toPasses := passes
  offers := h
  late := late
  onward list := by
    rw [plain] at list
    cases list

/-! ## The whole path -/

include watch

/-- What the walk offers at a node of the path it offers at every node before, unless it is to offer
nothing there. -/
theorem offers_path {region : Node} (reaches : n.Reaches region) (inner : region.Reaches around)
    (hn : n ∈ body.preorder) (field : n.kind.isFieldDeclaration = false)
    (plain : isList region.kind = false) (late : p.startsBefore v = false → k = 0)
    (held : p.isInside region = false → k = 0) (h : watch.Offers k region) :
    watch.Offers k n ∧ (n ≠ region → ∃ m, watch.Passes n m ∧ watch.Offers k m) := by
  -- a list is skipped by the level above it, so the fact for the next node is kept as well
  induction reaches with
  | refl n => exact ⟨h, fun other => absurd rfl other⟩
  | @step n m region leads reaches ih =>
    have passes : watch.Passes n m := ⟨hn, leads, reaches.trans inner⟩
    have hm : m ∈ body.preorder := Node.mem_preorder_of_mem_children hn leads.below
    have field' := watch.java.not_isFieldDeclaration_of_leads passes.mem_root leads
    obtain ⟨offers, onward⟩ := ih inner hm field' plain held h
    have hands : watch.HandsOn k n m :=
      { toPasses := passes
        offers := offers
        late := late
        onward := fun list => onward fun same => by
          rw [same, plain] at list
          cases list }
    refine ⟨?_, fun _ => ⟨m, passes, offers⟩⟩
    rw [Offers, run_eq_level typeOf p n hands.handsOver.start_named]
    apply hands.sees_level field
    intro outside
    apply held
    exact watch.isInside_of_below hn (Node.mem_preorder_of_child leads.below reaches.mem_preorder)
      outside

end Watch

end LocalWalk

end JavaScope
