import JavaScope.Scope.Query
import JavaScope.Proofs.Scope.Members

/-!
# Queries only let the environment grow

Every query of a scope, a name or an expression leaves an environment that has grown from the one it
was asked of, also when it fails. The typing of expressions is a parameter up to the point where the
circle is closed.
-/

namespace JavaScope

/-- The environment and the request of a search have a property each. -/
def Searching.Within {σ : Type} (I : Environment → Prop) (K : σ → Prop) (st : Searching σ) : Prop :=
  I st.environment ∧ K st.request

variable {I : Environment → Prop}

theorem keeps_supertypes [Environment.Lasts I] (t : TypeId) : Keeps I (supertypes t) := by
  refine (Environment.keeps_read _).bind fun s => .ite ?_ ?_
  · exact .ite (Environment.keeps_objectType.bind fun _ => .pure _) (.pure _)
  · split
    · exact .pure _
    · exact .ite (Environment.keeps_objectType.bind fun _ => .pure _) (.pure _)

/-! ## Searches -/

section Search

variable {σ : Type} [Request σ] {typeOf : Typing} {K : σ → Prop}

theorem keeps_true (s : Store) (candidate : Option BindingId) :
    Keeps (fun _ : σ => True) (Request.accept s candidate) :=
  fun _ _ => trivial

omit [Request σ] in
theorem keeps_lift {α : Type} {action : EnvironmentM α} (h : Keeps I action) :
    Keeps (Searching.Within I K) (SearchM.lift (σ := σ) action) :=
  fun st hst => ⟨h st.environment hst.1, hst.2⟩

omit [Request σ] in
theorem keeps_start {α : Type} {request : σ} (hr : K request) {search : SearchM σ α}
    (h : Keeps (Searching.Within I K) search) : Keeps I (SearchM.start request search) :=
  fun e he => (h ⟨e, request⟩ ⟨he, hr⟩).1

variable (hK : ∀ s candidate, Keeps K (Request.accept s candidate))

include hK

theorem keeps_collectLocal (keeps : ∀ n, Keeps I (typeOf n)) (n : Node) (position : Nat)
    (flags : Flags) :
    Keeps (Searching.Within I K) (collectLocal (σ := σ) typeOf n position flags) :=
  (hasCourse_collectLocal (MayOffer.anything _) keeps n position flags).keeps hK

theorem keeps_offerAll (bindings : List BindingId) :
    Keeps (Searching.Within I K) (SearchM.offerAll (σ := σ) bindings) :=
  (HasCourse.offerAll (I := I) (J := fun _ => True) fun _ _ _ _ => trivial).keeps hK

theorem keeps_offerMembers (flags : Flags) (t : TypeId) :
    Keeps (Searching.Within I K) (offerMembers (σ := σ) flags t) :=
  Keeps.get.bind fun _ => keeps_offerAll hK _

theorem keeps_offerType (flags : Flags) (t : TypeId) :
    Keeps (Searching.Within I K) (offerType (σ := σ) flags t) :=
  Keeps.get.bind fun _ => .ite (keeps_offerAll hK _) (.pure false)

variable [Environment.Lasts I]

theorem keeps_collectInherited (flags : Flags) (t : TypeId) (visited : List TypeId) :
    Keeps (Searching.Within I K) (collectInherited (σ := σ) flags t visited) :=
  (hasCourse_collectInherited (MayOffer.anything _) keeps_supertypes flags t visited).keeps hK

theorem keeps_collectTypesWith (keeps : ∀ n, Keeps I (typeOf n)) (flags : Flags)
    (fuel : Nat) (t : TypeId) (visited : List TypeId) :
    Keeps (Searching.Within I K) (collectTypesWith (σ := σ) typeOf flags fuel t visited) := by
  induction fuel generalizing t visited with
  | zero => exact .throw .endless
  | succ fuel ih =>
    refine (keeps_offerType hK flags t).bind fun stopped => .ite (.pure true) ?_
    refine (keeps_collectInherited hK flags t visited).bind fun found => Keeps.get.bind fun st => ?_
    refine .ite ?_ ?_
    · split
      · refine Keeps.bind ?_ fun stopped => .ite (.pure true) (Keeps.get.bind fun st => ?_)
        · exact Keeps.get.bind fun st => keeps_collectLocal hK keeps _ _ flags
        · split
          · exact ih _ _
          · exact .pure false
      · exact .pure false
    · split
      · exact ih _ _
      · exact .ite (keeps_offerAll hK _) (.pure false)

theorem keeps_collectTypes (keeps : ∀ n, Keeps I (typeOf n)) (flags : Flags) (t : TypeId) :
    Keeps (Searching.Within I K) (collectTypes (σ := σ) typeOf flags t) :=
  Keeps.get.bind fun _ => keeps_collectTypesWith hK keeps flags _ t []

end Search

/-! ## Members -/

theorem keeps_findMemberWith [Environment.Lasts I] (fits : Store → BindingId → Bool) (fuel : Nat)
    (pending : List (Option TypeId)) (visited : List TypeId) :
    Keeps I (findMemberWith fits fuel pending visited) := by
  induction fuel generalizing pending visited with
  | zero =>
    unfold findMemberWith
    refine (Environment.keeps_read _).bind fun s => (Keeps.ofExcept _).bind fun next => ?_
    cases next with
    | none => exact .pure none
    | some next => exact .throw .endless
  | succ fuel ih =>
    unfold findMemberWith
    refine (Environment.keeps_read _).bind fun s => (Keeps.ofExcept _).bind fun next => ?_
    cases next with
    | none => exact .pure none
    | some next =>
      dsimp only
      split
      · exact .pure _
      · exact (keeps_supertypes _).bind fun ups => ih _ _

theorem keeps_findMember [Environment.Lasts I] (t : TypeId) (fits : Store → BindingId → Bool) :
    Keeps I (findMember t fits) :=
  (Environment.keeps_read _).bind fun _ => keeps_findMemberWith fits _ _ _

/-! ## Expressions -/

namespace Scope

section Typing

variable {typeOf : Typing} (keeps : ∀ n, Keeps I (typeOf n))

include keeps in
theorem keeps_typeOf? (n : Option Node) : Keeps I (typeOf? typeOf n) := by
  cases n with
  | none => exact .pure none
  | some n => exact keeps n

include keeps in
theorem keeps_qualifierOf (n : Option Node) : Keeps I (qualifierOf typeOf n) := by
  unfold qualifierOf
  split
  · exact .pure _
  · refine (keeps _).bind fun t => ?_
    cases t with
    | none => exact .pure _
    | some t => exact .pure _

include keeps in
theorem keeps_labelEnum (n : Node) : Keeps I (labelEnum typeOf n) :=
  .ite ((keeps_typeOf? keeps _).bind fun _ => (Environment.keeps_read _).bind fun _ => .pure _)
    (.pure none)

theorem keeps_collected (request : Collection) {search : SearchM Collection Bool}
    (h : Keeps (Searching.Within I fun _ => True) search) :
    Keeps I (collected request search) :=
  (keeps_start trivial h).bind fun _ => (Environment.keeps_read _).bind fun _ => Keeps.ofExcept _

variable [Environment.Lasts I]

include keeps in
theorem keeps_collectAtName {σ : Type} [Request σ] {K : σ → Prop}
    (hK : ∀ s candidate, Keeps K (Request.accept s candidate)) (n : Node) (around : TypeId)
    (flags : Flags) : Keeps (Searching.Within I K) (collectAtName typeOf n around flags) :=
  Keeps.get.bind fun _ => (keeps_collectLocal hK keeps n _ flags).bind fun _ =>
    .ite (.pure true) (keeps_collectTypes hK keeps flags around)

include keeps in
theorem keeps_declarationsAtName (n : Node) (flags : Flags) :
    Keeps I (declarationsAtName typeOf n flags) := by
  refine (keeps_labelEnum keeps n).bind fun label => ?_
  cases label with
  | some t => exact (Environment.keeps_read _).bind fun _ => .pure _
  | none =>
    refine Keeps.get.bind fun e => ?_
    cases e.enclosingType n with
    | none => exact .pure []
    | some around =>
      refine (keeps_qualifierOf keeps (some n)).bind fun qualifier => ?_
      cases qualifier with
      | absent => exact keeps_collected _ (keeps_collectAtName keeps keeps_true n around flags)
      | type t =>
        exact keeps_collected _ ((keeps_collectInherited keeps_true flags t []).bind fun found =>
          .pure found.1)
      | unknown => exact keeps_collected _ (.pure false)

theorem keeps_findMemberOutwards (fits : Store → BindingId → Bool) (fuel : Nat)
    (t : Option TypeId) : Keeps I (findMemberOutwards fits fuel t) := by
  induction fuel generalizing t with
  | zero =>
    cases t with
    | none => exact .pure none
    | some t => exact .throw .endless
  | succ fuel ih =>
    cases t with
    | none => exact .pure none
    | some t =>
      refine (keeps_findMember t fits).bind fun found => ?_
      cases found with
      | some member => exact .pure _
      | none => exact (Environment.keeps_read _).bind fun _ => ih _

include keeps in
theorem keeps_resolveMethod (invocation : Node) :
    Keeps I (resolveMethod typeOf invocation) := by
  refine (Environment.keeps_read _).bind fun d => (keeps_qualifierOf keeps _).bind fun qualifier => ?_
  cases qualifier with
  | unknown => exact (Keeps.pure none).bind fun _ => .pure _
  | type t => exact (keeps_findMember t _).bind fun _ => .pure _
  | absent =>
    exact (Keeps.get.bind fun e => keeps_findMemberOutwards _ _ _).bind fun _ => .pure _

theorem keeps_resolveAsType (n : Node) : Keeps I (resolveAsType n) :=
  (Environment.keeps_read _).bind fun _ => (Environment.keeps_resolveTypeNameIn _ _).bind fun _ =>
    (Environment.keeps_read _).bind fun _ => .ite (.pure none) (.pure _)

include keeps in
theorem keeps_resolve (n : Node) : Keeps I (resolve typeOf n) := by
  refine Keeps.get.bind fun e => ?_
  cases e.bindingOf n with
  | some b => exact .pure _
  | none =>
    refine (Environment.keeps_read _).bind fun d => ?_
    dsimp only
    split
    · exact (keeps_resolveMethod keeps _).bind fun _ => .pure _
    · refine (keeps_qualifierOf keeps (some n)).bind fun qualifier => ?_
      cases qualifier with
      | unknown => exact .pure none
      | type t => exact keeps_findMember t _
      | absent =>
        refine (keeps_declarationsAtName keeps n _).bind fun available => ?_
        refine (Environment.keeps_read _).bind fun s => ?_
        split
        · exact .pure _
        · exact keeps_resolveAsType n

include keeps in
theorem keeps_typeOfName (n : Option Node) : Keeps I (typeOfName typeOf n) := by
  refine Keeps.bind (a := resolve? typeOf n) ?_ fun b => ?_
  · cases n with
    | none => exact .pure none
    | some n => exact keeps_resolve keeps n
  · split
    · exact (Environment.keeps_read _).bind fun _ => .pure _
    · exact .pure _
    · exact .pure none

include keeps in
theorem keeps_expressionStep (n : Node) : Keeps I (expressionStep typeOf n) := by
  unfold expressionStep
  split
  · exact keeps_typeOf? keeps _
  · exact Keeps.get.bind fun _ => .pure _
  · exact Keeps.get.bind fun _ => .pure _
  · exact keeps_typeOfName keeps _
  · exact keeps_typeOfName keeps _
  · refine (keeps_resolveMethod keeps n).bind fun m => ?_
    cases m with
    | some m => exact (Environment.keeps_read _).bind fun _ => .pure _
    | none => exact .pure none
  · exact Environment.keeps_resolveType? _ _
  · exact Environment.keeps_resolveType? _ _
  · exact (Environment.keeps_resolveType? _ _).bind fun _ => (Environment.keeps_read _).bind fun _ =>
      Environment.keeps_arrayOf _ _
  · refine (keeps_typeOf? keeps _).bind fun t => ?_
    cases t with
    | none => exact .pure none
    | some t =>
      refine (Environment.keeps_read _).bind fun s => .ite ?_ (.pure none)
      exact Environment.keeps_arrayOf _ _
  · split
    · exact (Environment.keeps_recoveredType _).bind fun _ => .pure _
    · exact (Environment.keeps_primitiveType _).bind fun _ => .pure _
    · exact .pure none

end Typing

theorem keeps_expressionTypeWith [Environment.Lasts I] (fuel : Nat) (n : Node) :
    Keeps I (expressionTypeWith fuel n) := by
  induction fuel generalizing n with
  | zero => exact .throw .endless
  | succ fuel ih => exact keeps_expressionStep ih n

theorem keeps_expressionType [Environment.Lasts I] (n : Node) : Keeps I (expressionType n) :=
  (Environment.keeps_read _).bind fun _ => keeps_expressionTypeWith _ n

/-! ## Queries -/

section Later

variable {σ : Type} [Request σ] {K : σ → Prop}
  (hK : ∀ s candidate, Keeps K (Request.accept s candidate))

include hK in
theorem keeps_offerResolved (asked : Bool) {resolved : EnvironmentM (Option BindingId)}
    (h : Keeps I resolved) :
    Keeps (Searching.Within I K) (offerResolved (σ := σ) asked resolved) :=
  .ite ((keeps_lift h).bind fun candidate => fun _ hst => ⟨hst.1, hK _ candidate _ hst.2⟩)
    (.pure false)

omit [Request σ] in
theorem keeps_search {I : σ → Prop} {look : Node → Action σ Node.Step}
    (h : ∀ n, Keeps I (look n)) (n : Node) : Keeps I (n.search look) := by
  refine Node.fold_induction (P := fun _ => Keeps I) (fun n below ih => ?_) n
  refine (h n).bind fun step => ?_
  cases step with
  | stop => exact .pure true
  | skip => exact .pure false
  | enter => exact .anyM ih

include hK in
theorem keeps_lookLater [Environment.Lasts I] (p : ScopePoint) (d : Document) (n : Node) :
    Keeps (Searching.Within I K) (lookLater (σ := σ) expressionType p d n) := by
  have declared : ∀ asked, Keeps (Searching.Within I K)
      (offerResolved (σ := σ) asked (pure (p.bindingOf n))) :=
    fun asked => keeps_offerResolved hK asked (.pure _)
  have resolved : ∀ asked m, Keeps (Searching.Within I K)
      (offerResolved (σ := σ) asked (resolve expressionType m)) :=
    fun asked m => keeps_offerResolved hK asked (keeps_resolve keeps_expressionType m)
  have invoked : ∀ asked m, Keeps (Searching.Within I K)
      (offerResolved (σ := σ) asked (invoked expressionType m)) := fun asked m =>
    keeps_offerResolved hK asked
      ((keeps_resolveMethod keeps_expressionType m).bind fun _ => .pure _)
  have skipping : ∀ {search : SearchM σ Bool}, Keeps (Searching.Within I K) search →
      Keeps (Searching.Within I K)
        (search >>= fun stopped => pure (if stopped then Node.Step.stop else .skip)) :=
    fun h => h.bind fun _ => .pure _
  refine .ite (.pure Node.Step.skip) ?_
  split
  · apply skipping
    split
    · exact (resolved _ _).bind fun _ => .ite (.pure true) (declared _)
    · exact declared _
  iterate 3 exact skipping (declared _)
  · exact (declared _).bind fun _ => .pure _
  · exact skipping (invoked _ _)
  · apply skipping
    split
    · exact .pure false
    · exact .ite (resolved _ _) (invoked _ _)
  iterate 5 exact skipping (declared _)
  · exact .pure _
  · exact .pure _

end Later

variable [Environment.Lasts I]

theorem keeps_declarationsAfter (n : Node) (flags : Flags) (onlyAround : Bool) :
    Keeps I (declarationsAfter expressionType n flags onlyAround) := by
  unfold declarationsAfter
  split
  · exact .pure []
  · exact Keeps.get.bind fun e => keeps_collected _ (keeps_search (keeps_lookLater keeps_true _ _) _)

theorem keeps_declarationsInUnit (l : Location) (flags : Flags) (n : Option Node) :
    Keeps I (declarationsInUnit l flags n) := by
  refine Keeps.get.bind fun e => keeps_collected _ ?_
  refine (keeps_collectLocal keeps_true keeps_expressionType _ _ flags).bind fun _ => ?_
  split
  · exact keeps_collectTypes keeps_true keeps_expressionType flags _
  · exact .pure false

theorem keeps_declarationsAtLocation (l : Location) (flags : Flags) :
    Keeps I (declarationsAtLocation l flags) := by
  refine (Environment.keeps_read _).bind fun n => ?_
  cases n with
  | none => exact .pure []
  | some n =>
    refine .ite (keeps_declarationsAtName keeps_expressionType n flags) (.ite ?_ (.ite ?_ (.pure [])))
    · exact Keeps.get.bind fun _ => (keeps_declarationsAfter n flags false).bind fun _ =>
        (keeps_declarationsAfter n flags true).bind fun _ => .pure _
    · exact keeps_declarationsInUnit l flags (some n)

/-- Asking for the declarations in scope only lets the environment grow. -/
theorem keeps_declarationsInScope (selector : Selector) (flags : Flags) :
    Keeps I (declarationsInScope selector flags) := by
  cases selector with
  | node n =>
    exact (Keeps.ofExcept _).bind fun n => keeps_declarationsAtName keeps_expressionType n flags
  | location l => exact keeps_declarationsAtLocation l flags

end Scope

end JavaScope
