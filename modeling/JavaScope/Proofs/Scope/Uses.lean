import JavaScope.Proofs.Scope.RepeatedNames

/-!
# Later declarations and uses as a list

The search for what is declared or used later enters a node or stays out of it whatever is asked for,
and so goes through one list of uses, of which the flags choose some. What a query for several kinds
chooses is what the queries for the single kinds choose, with one exception: a `return` is looked at
for a variable or for a call, and never for both.
-/

namespace JavaScope

namespace Scope

/-! ## Uses -/

/-- Something declared or used in a block: what a node declares, what a name refers to, or the
method that an invocation calls. -/
inductive Use where
  | declaration (n : Node)
  | reference (n : Node)
  | call (n : Node)

namespace Use

/-- What a use refers to, where nodes declare bindings. -/
def find (bindingOf : Node → Option BindingId) : Use → EnvironmentM (Option BindingId)
  | .declaration n => return bindingOf n
  | .reference n => resolve expressionType n
  | .call n => invoked expressionType n

/-- Offers what a use refers to. -/
def offer {σ : Type} [Request σ] (bindingOf : Node → Option BindingId) (u : Use) : SearchM σ Bool := do
  SearchM.offer (← SearchM.lift (u.find bindingOf))

/-- The use, if it is asked for. -/
def onlyIf (asked : Bool) (u : Use) : List Use :=
  if asked then [u] else []

end Use

/-- The uses at a node that are asked for. -/
def usesAt (p : ScopePoint) (d : Document) (n : Node) : List Use :=
  let after := p.position < p.unit.charStart n
  let vars := after && p.flags.vars
  let methods := after && p.flags.methods
  let types := after && p.flags.types
  if !n.isNamed then [] else
  match n.kind with
  | .variableDeclarator =>
    ((capitalQualifier d (n.childByField .value)).toList.flatMap fun qualifier =>
      Use.onlyIf types (.reference qualifier)) ++ Use.onlyIf vars (.declaration n)
  | .formalParameter | .catchFormalParameter | .resource | .enhancedForStatement =>
    Use.onlyIf vars (.declaration n)
  | .methodInvocation => Use.onlyIf methods (.call n)
  | .returnStatement =>
    match n.namedChildren.head? with
    | none => []
    | some value =>
      if vars then Use.onlyIf (value.kind == .identifier) (.reference value)
      else Use.onlyIf (methods && value.kind == .methodInvocation) (.call value)
  | .classDeclaration | .interfaceDeclaration | .enumDeclaration | .recordDeclaration
  | .annotationTypeDeclaration => Use.onlyIf types (.declaration n)
  | _ => []

/-- The search for later uses goes on below a node. -/
def entersLater (bindingOf : Node → Option BindingId) (n : Node) : Bool :=
  n.isNamed && match n.kind with
  | .variableDeclarator | .formalParameter | .catchFormalParameter | .resource | .methodInvocation
  | .returnStatement | .classDeclaration | .interfaceDeclaration | .enumDeclaration
  | .recordDeclaration | .annotationTypeDeclaration => false
  | .classBody => (bindingOf n).isNone
  | _ => true

/-- The uses in a block that are asked for, in the order of the text. -/
def usesIn (p : ScopePoint) (d : Document) (block : Node) : List Use :=
  (block.visited (entersLater p.bindingOf)).flatMap (usesAt p d)

/-! ## The search as a walk through the list -/

section Search

variable {σ : Type} [Request σ] (p : ScopePoint) (d : Document)

omit [Request σ] in
theorem anyM_append {α : Type} (xs ys : List α) (f : α → SearchM σ Bool) :
    (xs ++ ys).anyM f = (do
      if ← xs.anyM f then return true
      ys.anyM f) := by
  induction xs with
  | nil => simp
  | cons x xs ih =>
    simp only [List.cons_append, List.anyM_cons, ih, bind_assoc]
    apply bind_congr
    intro stopped
    cases stopped <;> rfl

omit [Request σ] in
theorem anyM_flatMap {α β : Type} (xs : List α) (g : α → List β) (f : β → SearchM σ Bool) :
    (xs.flatMap g).anyM f = xs.anyM fun x => (g x).anyM f := by
  induction xs with
  | nil => rfl
  | cons x xs ih =>
    rw [List.flatMap_cons, anyM_append, List.anyM_cons, ih]

omit [Request σ] in
theorem stopped_else_false (search : SearchM σ Bool) :
    (do if ← search then return true else return false) = search := by
  refine Eq.trans (bind_congr fun stopped => ?_) (bind_pure search)
  cases stopped <;> rfl

theorem anyM_onlyIf (asked : Bool) (u : Use) :
    (Use.onlyIf asked u).anyM (Use.offer (σ := σ) p.bindingOf) =
      offerResolved asked (u.find p.bindingOf) := by
  cases asked
  · rfl
  · rw [Use.onlyIf, if_pos rfl, List.anyM_cons]
    exact stopped_else_false _

theorem lookLater_eq (n : Node) :
    lookLater (σ := σ) expressionType p d n = (do
      if ← (usesAt p d n).anyM (Use.offer p.bindingOf) then return .stop
      return if entersLater p.bindingOf n then .enter else .skip) := by
  have stopping : ∀ (search : SearchM σ Bool) (step : Node.Step),
      (do return if ← search then Node.Step.stop else step) =
        (do if ← search then return .stop else return step) := by
    intro search step
    apply bind_congr
    intro stopped
    cases stopped <;> rfl
  unfold lookLater usesAt entersLater
  by_cases named : n.isNamed = true
  · simp only [named, Bool.not_true, Bool.false_eq_true, if_false, Bool.true_and]
    cases n.kind
    case variableDeclarator =>
      simp only [anyM_append, anyM_flatMap, anyM_onlyIf, Use.find, Bool.false_eq_true, if_false,
        stopping]
      cases capitalQualifier d (n.childByField .value) with
      | none => rfl
      | some qualifier => simp only [Option.toList_some, List.anyM_cons, List.anyM_nil, stopped_else_false]
    case returnStatement =>
      simp only [Bool.false_eq_true, if_false, stopping]
      cases n.namedChildren.head? with
      | none => rfl
      | some value =>
        dsimp only
        split
        · rw [anyM_onlyIf]
          rfl
        · rw [anyM_onlyIf]
          rfl
    case classBody => cases p.bindingOf n <;> rfl
    all_goals simp only [anyM_onlyIf, Use.find, stopping, Bool.false_eq_true, if_false, if_true,
      List.anyM_nil, pure_bind]
  · simp [named]

/-- The search for later uses offers the uses that are asked for, one after the other. -/
theorem search_lookLater (block : Node) :
    block.search (lookLater (σ := σ) expressionType p d) =
      (usesIn p d block).anyM (Use.offer p.bindingOf) := by
  induction block using Node.induction with
  | h n ih =>
    have below : (n.children.flatMap (usesIn p d)).anyM (Use.offer (σ := σ) p.bindingOf) =
        (n.children.map fun c => (c, c.search (lookLater (σ := σ) expressionType p d))).anyM (·.2) := by
      rw [anyM_flatMap]
      generalize n.children = nodes at ih
      induction nodes with
      | nil => rfl
      | cons c nodes rest =>
        simp only [List.map_cons, List.anyM_cons, ih c List.mem_cons_self,
          rest fun c' hc' => ih c' (List.mem_cons_of_mem c hc')]
    have unfolded : usesIn p d n = usesAt p d n ++
        if entersLater p.bindingOf n then n.children.flatMap (usesIn p d) else [] := by
      rw [usesIn, Node.visited_eq, List.flatMap_cons]
      split
      · rw [List.flatMap_assoc]
        rfl
      · rfl
    rw [Node.search, Node.fold_eq, lookLater_eq, unfolded, anyM_append, bind_assoc]
    apply bind_congr
    intro stopped
    cases stopped
    · cases entersLater p.bindingOf n
      · rfl
      · exact below.symm
    · rfl

end Search

/-! ## What flags ask for -/

/-- The invocation that a `return` after the position returns the result of. -/
def returnedCall (p : ScopePoint) (n : Node) : Option Node :=
  if n.isNamed && n.kind == .returnStatement && p.position < p.unit.charStart n then
    n.namedChildren.head?.filter (·.kind == .methodInvocation)
  else none

/-- What a query for these methods and no variables looks at, a query that adds variables does not:
the calls whose results are returned. -/
def losesCalls (f g : Flags) : Bool :=
  f.methods && !f.vars && g.vars

theorem mem_onlyIf {asked : Bool} {u v : Use} : v ∈ Use.onlyIf asked u ↔ asked = true ∧ v = u := by
  cases asked <;> simp [Use.onlyIf]

theorem onlyIf_mono {asked asked' : Bool} (h : asked = true → asked' = true) {u v : Use}
    (hv : v ∈ Use.onlyIf asked u) : v ∈ Use.onlyIf asked' u := by
  rw [mem_onlyIf] at hv ⊢
  exact ⟨h hv.1, hv.2⟩

section Flags

variable (p : ScopePoint) (d : Document) (f g : Flags)

/-- A query for more kinds goes through the uses of the query for some, but for returned calls. -/
theorem mem_usesAt_union {n : Node} {u : Use} (h : u ∈ usesAt { p with flags := f } d n) :
    u ∈ usesAt { p with flags := f ∪ g } d n ∨
      losesCalls f g = true ∧ ∃ value, returnedCall p n = some value ∧ u = .call value := by
  have vars : (f ∪ g).vars = (f.vars || g.vars) := rfl
  have methods : (f ∪ g).methods = (f.methods || g.methods) := rfl
  have types : (f ∪ g).types = (f.types || g.types) := rfl
  unfold usesAt at h ⊢
  by_cases named : n.isNamed = true
  · simp only [named, Bool.not_true, Bool.false_eq_true, if_false, vars, methods, types] at h ⊢
    cases hk : n.kind
    case returnStatement => 
      simp only [hk] at h ⊢
      cases hv : n.namedChildren.head? with
      | none => simp [hv] at h
      | some value =>
        simp only [hv] at h ⊢
        by_cases vars' : (decide (p.position < p.unit.charStart n) && f.vars) = true
        · have more : (decide (p.position < p.unit.charStart n) && (f.vars || g.vars)) = true := by
            simp_all
          rw [if_pos vars'] at h
          rw [if_pos more]
          exact .inl h
        · rw [if_neg vars', mem_onlyIf] at h
          obtain ⟨asked, rfl⟩ := h
          -- a call is looked at if no variables are asked for
          by_cases more : (decide (p.position < p.unit.charStart n) && (f.vars || g.vars)) = true
          · right
            simp_all [losesCalls, returnedCall]
          · left
            rw [if_neg more, mem_onlyIf]
            simp_all
    all_goals
      simp only [hk, List.mem_append, List.mem_flatMap, mem_onlyIf, List.not_mem_nil] at h ⊢
    all_goals simp only [Bool.and_eq_true, Bool.or_eq_true] at h ⊢
    case variableDeclarator =>
      left
      rcases h with ⟨qualifier, hq, ⟨after, asked⟩, rfl⟩ | ⟨⟨after, asked⟩, rfl⟩
      · exact .inl ⟨qualifier, hq, ⟨after, .inl asked⟩, rfl⟩
      · exact .inr ⟨⟨after, .inl asked⟩, rfl⟩
    all_goals tauto
  · simp [named] at h

/-- A query for more kinds goes through no use but those of the queries for some of them. -/
theorem mem_usesAt_of_union {n : Node} {u : Use} (h : u ∈ usesAt { p with flags := f ∪ g } d n) :
    u ∈ usesAt { p with flags := f } d n ∨ u ∈ usesAt { p with flags := g } d n := by
  have vars : (f ∪ g).vars = (f.vars || g.vars) := rfl
  have methods : (f ∪ g).methods = (f.methods || g.methods) := rfl
  have types : (f ∪ g).types = (f.types || g.types) := rfl
  unfold usesAt at h ⊢
  by_cases named : n.isNamed = true
  · simp only [named, Bool.not_true, Bool.false_eq_true, if_false, vars, methods, types] at h ⊢
    cases hk : n.kind
    case returnStatement =>
      simp only [hk] at h ⊢
      cases hv : n.namedChildren.head? with
      | none => simp [hv] at h
      | some value =>
        simp only [hv] at h ⊢
        generalize decide (p.position < p.unit.charStart n) = after at h ⊢
        rw [Bool.and_or_distrib_left, Bool.and_or_distrib_left] at h
        generalize (after && f.vars) = first at h ⊢
        generalize (after && g.vars) = second at h ⊢
        cases first
        · cases second
          · -- a call that neither query passes over for variables
            simp only [Bool.or_self, Bool.false_eq_true, if_false, mem_onlyIf, Bool.and_eq_true,
              Bool.or_eq_true] at h ⊢
            tauto
          · exact .inr h
        · exact .inl h
    all_goals
      simp only [hk, List.mem_append, List.mem_flatMap, mem_onlyIf, List.not_mem_nil] at h ⊢
    all_goals simp only [Bool.and_eq_true, Bool.or_eq_true] at h ⊢
    case variableDeclarator =>
      rcases h with ⟨qualifier, hq, ⟨after, asked | asked⟩, rfl⟩ | ⟨⟨after, asked | asked⟩, rfl⟩
      · exact .inl (.inl ⟨qualifier, hq, ⟨after, asked⟩, rfl⟩)
      · exact .inr (.inl ⟨qualifier, hq, ⟨after, asked⟩, rfl⟩)
      · exact .inl (.inr ⟨⟨after, asked⟩, rfl⟩)
      · exact .inr (.inr ⟨⟨after, asked⟩, rfl⟩)
    all_goals tauto
  · simp [named] at h

theorem call_mem_usesAt {n value : Node} (lost : losesCalls f g = true)
    (h : returnedCall p n = some value) : .call value ∈ usesAt { p with flags := f } d n := by
  unfold returnedCall at h
  split at h
  · next here =>
    obtain ⟨first, call⟩ := Option.filter_eq_some_iff.1 h
    simp_all [usesAt, losesCalls, Use.onlyIf]
  · cases h

end Flags

/-! ## What a use refers to -/

namespace Use

variable {e e₁ e₂ e₃ e₄ : Environment} {u : Use} {b b' : Option BindingId}

instance growing_find (bindingOf : Node → Option BindingId) (u : Use) : Growing (u.find bindingOf) :=
  .of_keeps fun e => by
    cases u with
    | declaration n => exact .pure _
    | reference n => exact keeps_resolve keeps_expressionType n
    | call n => exact (keeps_resolveMethod keeps_expressionType n).bind fun _ => .pure _

/-- A use that was resolved is resolved to the same binding. -/
theorem repeats_find (grown : e.Grows e₁) (closed : e.Closed) (u : Use) :
    Repeats e₁ e₂ (u.find e.bindingOf) (u.find e.bindingOf) SameBinding := by
  cases u with
  | declaration n =>
    refine .pure fun _ => ⟨rfl, fun t declared => ?_⟩
    obtain ⟨key, filed⟩ := Environment.exists_mem_of_bindingOf declared
    exact grown.store.has (closed.declared _ (List.mem_map_of_mem filed))
  | reference n => exact repeats_resolve isRepeatable_expressionType n
  | call n =>
    have := growing_resolveMethod isRepeatable_expressionType n
    refine (repeats_resolveMethod isRepeatable_expressionType n).bind (fun _ => inferInstance) ?_
    rintro m _ _ _ - - - rfl
    exact .pure fun _ => ⟨rfl, by simp⟩

theorem isRepeatedFrom_offer (closed : e.Closed) (u : Use) :
    IsRepeatedFrom e (u.offer e.bindingOf) where
  growing := Growing.bind (SearchM.lift (u.find e.bindingOf)) SearchM.offer
  repeats st e₂ grown := by
    refine (repeats_find grown closed u).lift.bind (fun _ => inferInstance) ?_
    rintro b _ st₁ e₃ - - - ⟨rfl, has⟩
    exact repeats_offer has

theorem offer_eq_ok {bindingOf : Node → Option BindingId} {k k' : Collection} {stopped : Bool}
    (run : outcome (u.offer bindingOf) (⟨e₁, k⟩ : Searching Collection) = (.ok stopped, ⟨e₂, k'⟩)) :
    ∃ b, outcome (u.find bindingOf) e₁ = (.ok b, e₂) ∧
      outcome (Request.accept e₂.store b) k = (.ok stopped, k') := by
  obtain ⟨b, ⟨e, k₁⟩, lifted, offered⟩ := outcome_bind_eq_ok.1 run
  have lift : outcome (SearchM.lift (u.find bindingOf)) (⟨e₁, k⟩ : Searching Collection) =
      ((outcome (u.find bindingOf) e₁).1, ⟨(outcome (u.find bindingOf) e₁).2, k⟩) := rfl
  have offer : outcome (SearchM.offer b) (⟨e, k₁⟩ : Searching Collection) =
      ((outcome (Request.accept e.store b) k₁).1, ⟨e, (outcome (Request.accept e.store b) k₁).2⟩) := rfl
  rcases found : outcome (u.find bindingOf) e₁ with ⟨answer, e'⟩
  rw [lift, found] at lifted
  cases lifted
  rcases accepted : outcome (Request.accept e'.store b) k with ⟨answer, k''⟩
  rw [offer, accepted] at offered
  cases offered
  exact ⟨b, rfl, accepted⟩

theorem grows_of_find {bindingOf : Node → Option BindingId}
    (found : outcome (u.find bindingOf) e₁ = (.ok b, e₂)) : e₁.Grows e₂ := by
  have grows := Growing.grows (a := u.find bindingOf) e₁
  rwa [found] at grows

/-- On the way from one environment to another, the use was resolved, and refers to this. -/
def Finds (e : Environment) (u : Use) (b : Option BindingId) (e' : Environment) : Prop :=
  ∃ e₁ e₂, e.Grows e₁ ∧ outcome (u.find e.bindingOf) e₁ = (.ok b, e₂) ∧ e₂.Grows e'

/-- On the way from one environment to another, the use was resolved where nothing dangled, and refers
to this. -/
structure Resolves (e : Environment) (u : Use) (b : Option BindingId) (e' : Environment) : Prop where
  closed : e.Closed
  run : ∃ e₁ e₂, e.Grows e₁ ∧ e₁.Closed ∧ outcome (u.find e.bindingOf) e₁ = (.ok b, e₂) ∧ e₂.Grows e'

namespace Resolves

theorem later (h : u.Resolves e b e₁) (grown : e₁.Grows e₂) : u.Resolves e b e₂ := by
  obtain ⟨closed, e', e'', before, closed', found, after⟩ := h
  exact ⟨closed, e', e'', before, closed', found, after.trans grown⟩

/-- Asked again, the use refers to the same. -/
theorem again (h : u.Resolves e b e₁) (grown : e₁.Grows e₂) :
    ∃ e₃, outcome (u.find e.bindingOf) e₂ = (.ok b, e₃) ∧ e₂.Grows e₃ := by
  obtain ⟨closed, e', e'', before, closed', found, after⟩ := h
  have repeated : Repeats e' e₂ (u.find e.bindingOf) (u.find e.bindingOf) SameBinding :=
    repeats_find before closed u
  unfold Repeats at repeated
  rw [found] at repeated
  obtain ⟨_, e₃, run, grown', rfl, -⟩ := (repeated closed' (after.trans grown)).2 _ _ rfl
  exact ⟨e₃, run, grown'⟩

/-- What the use refers to keeps its signature. -/
theorem signature_eq {d : BindingId} (h : u.Resolves e (some d) e₁) (grown : e₁.Grows e₂) :
    e₂.store.signature d = e₁.store.signature d := by
  obtain ⟨closed, e', e'', before, closed', found, after⟩ := h
  have repeated : Repeats e' e'' (u.find e.bindingOf) (u.find e.bindingOf) SameBinding :=
    repeats_find before closed u
  unfold Repeats at repeated
  rw [found] at repeated
  obtain ⟨closed'', again⟩ := repeated closed' (.refl _)
  obtain ⟨_, _, -, -, -, has⟩ := again _ _ rfl
  refine (Store.signature_eq closed''.store after.store (after.trans grown).store ?_).symm
  rintro t rfl
  exact has t rfl

theorem grows (h : u.Resolves e b e₁) : e.Grows e₁ := by
  obtain ⟨-, e', e'', before, -, found, after⟩ := h
  exact (before.trans (grows_of_find found)).trans after

/-- What was resolved first is found again later, and has the same signature. -/
theorem agree_of_before (h : u.Resolves e b e₁) (h' : u.Resolves e₂ b' e₃)
    (same : e₂.bindingOf = e.bindingOf) (before : e₁.Grows e₂) :
    b' = b ∧ ∀ d ∈ b, e₃.store.signature d = e₁.store.signature d := by
  have grown := before.trans h'.grows
  obtain ⟨-, x, y, between, -, found', -⟩ := h'
  obtain ⟨z, found, -⟩ := h.again (before.trans between)
  rw [same, found] at found'
  cases found'
  refine ⟨rfl, ?_⟩
  rintro d rfl
  exact h.signature_eq grown

/-- Of two times that a use is resolved one comes after the other, so both times it refers to the
same, which has the same signature. -/
theorem agree (h : u.Resolves e b e₁) (h' : u.Resolves e₂ b' e₃) (same : e₂.bindingOf = e.bindingOf)
    (order : e₁.Grows e₂ ∨ e₃.Grows e) :
    b' = b ∧ ∀ d ∈ b, e₃.store.signature d = e₁.store.signature d := by
  rcases order with first | second
  · exact h.agree_of_before h' same first
  · obtain ⟨rfl, signatures⟩ := h'.agree_of_before h same.symm second
    exact ⟨rfl, fun d member => (signatures d member).symm⟩

end Resolves

/-- Whatever a collection has taken, the use can be offered to it in every environment that has grown
from this one. -/
def IsOfferable (e : Environment) (bindingOf : Node → Option BindingId) (u : Use) : Prop :=
  ∀ st : Searching Collection, e.Grows st.environment →
    ∃ st', outcome (u.offer bindingOf) st = (.ok false, st') ∧ st.environment.Grows st'.environment

theorem IsOfferable.later {bindingOf : Node → Option BindingId} (h : u.IsOfferable e bindingOf)
    (grown : e.Grows e₁) : u.IsOfferable e₁ bindingOf :=
  fun st grown' => h st (grown.trans grown')

/-- A use that was resolved to nothing, or to something with a signature, can be offered later. -/
theorem Resolves.isOfferable (finds : u.Resolves e b e₁)
    (signed : ∀ d ∈ b, ∃ x, e₁.store.signature d = .ok x) : u.IsOfferable e₁ e.bindingOf := by
  intro st grown
  obtain ⟨e', found, grown'⟩ := finds.again grown
  have lifted : outcome (SearchM.lift (u.find e.bindingOf)) st =
      (.ok b, { st with environment := e' }) := SearchM.outcome_lift_eq_ok.2 ⟨e', found, rfl⟩
  rw [Use.offer, outcome_bind_of_ok lifted]
  cases b with
  | none => exact ⟨_, rfl, grown'⟩
  | some d =>
    obtain ⟨x, signature⟩ := signed d rfl
    rw [outcome_offer_collection, finds.signature_eq (grown.trans grown'), signature]
    exact ⟨_, rfl, grown'⟩

/-- A search answers that offers one after the other what can be offered. -/
theorem exists_outcome_offerAll {bindingOf : Node → Option BindingId} {uses : List Use}
    (offerable : ∀ u ∈ uses, u.IsOfferable e bindingOf) {st : Searching Collection}
    (grown : e.Grows st.environment) :
    ∃ st', outcome (uses.anyM (Use.offer bindingOf)) st = (.ok false, st') := by
  induction uses generalizing st with
  | nil => exact ⟨st, rfl⟩
  | cons u rest ih =>
    obtain ⟨st₁, offered, grown'⟩ := offerable u List.mem_cons_self st grown
    obtain ⟨st', run⟩ :=
      ih (fun v hv => offerable v (List.mem_cons_of_mem u hv)) (grown.trans grown')
    refine ⟨st', ?_⟩
    rw [List.anyM_cons, outcome_bind_of_ok offered]
    exact run

end Use

/-! ## What is reported of a list of uses -/

/-- The bindings report the uses: each use that refers to something is represented by its signature,
and nothing else is reported. -/
structure Reports (e : Environment) (uses : List Use) (ds : List BindingId) (e' : Environment) :
    Prop where
  found : ∀ u ∈ uses, ∃ b, u.Resolves e b e' ∧
    ∀ d ∈ b, ∃ d' ∈ ds, e'.store.signature d' = e'.store.signature d
  origin : ∀ d ∈ ds, ∃ u ∈ uses, u.Resolves e (some d) e'

section Reports

variable {e e₁ e₂ : Environment} {uses uses' : List Use} {ds ds' : List BindingId} {u : Use}

/-- What is reported keeps its signature. -/
theorem Reports.signature_eq (h : Reports e uses ds e₁) (grown : e₁.Grows e₂) {d : BindingId}
    (hd : d ∈ ds) : e₂.store.signature d = e₁.store.signature d := by
  obtain ⟨u, hu, finds⟩ := h.origin d hd
  exact finds.signature_eq grown

theorem Reports.later (h : Reports e uses ds e₁) (grown : e₁.Grows e₂) : Reports e uses ds e₂ where
  found u hu := by
    obtain ⟨b, finds, represented⟩ := h.found u hu
    refine ⟨b, finds.later grown, ?_⟩
    rintro d rfl
    obtain ⟨d', hd', same⟩ := represented d rfl
    refine ⟨d', hd', ?_⟩
    calc e₂.store.signature d' = e₁.store.signature d' := h.signature_eq grown hd'
      _ = e₁.store.signature d := same
      _ = e₂.store.signature d := (finds.signature_eq grown).symm
  origin d hd := by
    obtain ⟨u, hu, finds⟩ := h.origin d hd
    exact ⟨u, hu, finds.later grown⟩

theorem Reports.append (h : Reports e uses ds e₁) (h' : Reports e uses' ds' e₁) :
    Reports e (uses ++ uses') (ds ++ ds') e₁ where
  found u hu := by
    rcases List.mem_append.1 hu with hu | hu
    · obtain ⟨b, finds, represented⟩ := h.found u hu
      refine ⟨b, finds, fun d hd => ?_⟩
      obtain ⟨d', hd', same⟩ := represented d hd
      exact ⟨d', List.mem_append_left _ hd', same⟩
    · obtain ⟨b, finds, represented⟩ := h'.found u hu
      refine ⟨b, finds, fun d hd => ?_⟩
      obtain ⟨d', hd', same⟩ := represented d hd
      exact ⟨d', List.mem_append_right _ hd', same⟩
  origin d hd := by
    rcases List.mem_append.1 hd with hd | hd
    · obtain ⟨u, hu, finds⟩ := h.origin d hd
      exact ⟨u, List.mem_append_left _ hu, finds⟩
    · obtain ⟨u, hu, finds⟩ := h'.origin d hd
      exact ⟨u, List.mem_append_right _ hu, finds⟩

theorem Reports.of_mem_iff (h : Reports e uses ds e₁) (same : ∀ d, d ∈ ds' ↔ d ∈ ds) :
    Reports e uses ds' e₁ where
  found u hu := by
    obtain ⟨b, finds, represented⟩ := h.found u hu
    refine ⟨b, finds, fun d hd => ?_⟩
    obtain ⟨d', hd', same'⟩ := represented d hd
    exact ⟨d', (same d').2 hd', same'⟩
  origin d hd := h.origin d ((same d).1 hd)

/-- The collection reports the uses, which can be offered again, and has no signature but those of its
bindings. -/
structure Gathers (e : Environment) (uses : List Use) (k : Collection) (e' : Environment) :
    Prop where
  reports : Reports e uses k.bindings e'
  signed : ∀ x ∈ k.signatures, ∃ d ∈ k.bindings, e'.store.signature d = .ok x
  offerable : ∀ u ∈ uses, u.IsOfferable e' e.bindingOf

theorem Gathers.new (place : Option TypeId) (flags : Flags) : Gathers e [] (.new place flags) e₁ where
  reports := ⟨nofun, nofun⟩
  signed := nofun
  offerable := nofun

/-- One more use is reported after it was offered. -/
theorem Gathers.offer {k k' : Collection} {stopped : Bool} (closed : e.Closed)
    (h : Gathers e uses k e₁) (before : e.Grows e₁) (closed₁ : e₁.Closed)
    (run : outcome (u.offer e.bindingOf) (⟨e₁, k⟩ : Searching Collection) = (.ok stopped, ⟨e₂, k'⟩)) :
    Gathers e (uses ++ [u]) k' e₂ ∧ e₁.Grows e₂ ∧ e₂.Closed := by
  obtain ⟨b, found, accepted⟩ := Use.offer_eq_ok run
  have grown : e₁.Grows e₂ := Use.grows_of_find found
  have closed₂ : e₂.Closed := by
    have stored := Repeats.stored (fun _ => Use.repeats_find before closed u) closed₁
    rwa [found] at stored
  refine ⟨?_, grown, closed₂⟩
  have finds : u.Resolves e b e₂ := ⟨closed, e₁, e₂, before, closed₁, found, .refl e₂⟩
  have reports := h.reports.later grown
  have signed : ∀ x ∈ k.signatures, ∃ d ∈ k.bindings, e₂.store.signature d = .ok x := by
    intro x hx
    obtain ⟨d, hd, signature⟩ := h.signed x hx
    exact ⟨d, hd, (h.reports.signature_eq grown hd).trans signature⟩
  have cases := (accept_collection_cases accepted).2
  have offerable : ∀ v ∈ uses ++ [u], v.IsOfferable e₂ e.bindingOf := by
    intro v hv
    rcases List.mem_append.1 hv with hv | hv
    · exact (h.offerable v hv).later grown
    · rw [List.mem_singleton.1 hv]
      refine finds.isOfferable ?_
      rintro d rfl
      obtain ⟨⟨⟩, -⟩ | ⟨_, x, ⟨⟩, signature, -⟩ := cases
      exact ⟨x, signature⟩
  -- nothing is taken if what the use refers to is represented
  have left : (∀ d ∈ b, ∃ d' ∈ k.bindings, e₂.store.signature d' = e₂.store.signature d) →
      Gathers e (uses ++ [u]) k e₂ := by
    intro represented
    refine ⟨⟨fun v hv => ?_, fun d hd => ?_⟩, signed, offerable⟩
    · rcases List.mem_append.1 hv with hv | hv
      · exact reports.found v hv
      · cases List.mem_singleton.1 hv
        exact ⟨b, finds, represented⟩
    · obtain ⟨v, hv, finds⟩ := reports.origin d hd
      exact ⟨v, List.mem_append_left _ hv, finds⟩
  obtain ⟨rfl, rfl⟩ | ⟨d, x, rfl, signature, ⟨taken, rfl⟩ | ⟨-, rfl⟩⟩ := cases
  · exact left nofun
  · refine left ?_
    rintro _ ⟨⟩
    obtain ⟨d', hd', same⟩ := signed x taken
    exact ⟨d', hd', same.trans signature.symm⟩
  · have single : Reports e [u] [d] e₂ :=
      ⟨fun v hv => ⟨some d, by rwa [List.mem_singleton.1 hv], by simp⟩,
        fun d' hd' => ⟨u, by simp, by rwa [List.mem_singleton.1 hd']⟩⟩
    refine ⟨reports.append single, fun y hy => ?_, offerable⟩
    rcases List.mem_cons.1 hy with rfl | hy
    · exact ⟨d, by simp, signature⟩
    · obtain ⟨d', hd', same⟩ := signed y hy
      exact ⟨d', List.mem_append_left _ hd', same⟩

/-- A search that offers uses one after the other gathers them. -/
theorem Gathers.offerAll {k k' : Collection} {stopped : Bool} (closed : e.Closed) (rest : List Use)
    (h : Gathers e uses k e₁) (before : e.Grows e₁) (closed₁ : e₁.Closed)
    (run : outcome (rest.anyM (Use.offer e.bindingOf)) (⟨e₁, k⟩ : Searching Collection) =
      (.ok stopped, ⟨e₂, k'⟩)) :
    Gathers e (uses ++ rest) k' e₂ ∧ e₁.Grows e₂ ∧ e₂.Closed := by
  induction rest generalizing uses e₁ k with
  | nil =>
    cases run
    rw [List.append_nil]
    exact ⟨h, .refl _, closed₁⟩
  | cons u rest ih =>
    rw [List.anyM_cons] at run
    obtain ⟨stops, ⟨e', k''⟩, first, run⟩ := outcome_bind_eq_ok.1 run
    obtain ⟨h', grown, closed'⟩ := h.offer closed before closed₁ first
    obtain ⟨b, -, accepted⟩ := Use.offer_eq_ok first
    cases (accept_collection_cases accepted).1
    have joined : uses ++ u :: rest = uses ++ [u] ++ rest := by simp
    rw [joined]
    obtain ⟨gathers, grown', closed''⟩ := ih h' (before.trans grown) closed' run
    exact ⟨gathers, grown.trans grown', closed''⟩

end Reports

end Scope

end JavaScope
