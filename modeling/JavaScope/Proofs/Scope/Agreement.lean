import JavaScope.Proofs.Scope.Outwards

/-!
# The agreement of the scope queries

Whether a declaration is in scope is asked of two searches along the same course: one collects all
declarations, and one stops at the declaration or at what hides it. They agree unless the second one
overlooks a member that hides the declaration.
-/

namespace JavaScope

variable {c : Context} {e₀ : Environment}

/-! ## Two requests on one course -/

section Course

variable {α : Type} {halted : α → Bool} {search : AnySearch α} {d : BindingId}

/-- A search for a declaration is unchanged by what does not stop it. -/
theorem HasCourse.unstopped_search {I : Environment → Prop} {J : Offer → Prop}
    (h : HasCourse I J halted search) {st st' : Searching Search} (start : I st.environment)
    (target : st.request.target = some d) (fresh : st.request.found = false) {x : α}
    (run : outcome (search Search) st = (.ok x, st')) (unhalted : halted x = false) :
    st'.request = st.request := by
  obtain ⟨log, ⟨answer, last⟩, course⟩ := h st.environment start
  have follows := course.follows Search st.request
  revert follows
  rcases replayed : outcome (replay log) st.request with ⟨f | ⟨_ | _⟩, r'⟩
  · rintro ⟨e', run', -⟩
    rw [run] at run'
    cases run'
  · intro run'
    rw [run] at run'
    cases run'
    exact replay_search_unstopped target fresh replayed
  · rintro ⟨y, e', run', stopped, -⟩
    rw [run] at run'
    cases run'
    rw [unhalted] at stopped
    cases stopped

/-- On one course, a search for a declaration ends as the declaration fares in a collection. -/
theorem HasCourse.verdict (ready : e₀.Ready c)
    (names : ∀ m, '(' ∉ (e₀.store.method m).name.toList) (declared : d ∈ e₀.bindings)
    (h : HasCourse e₀.Grows (Offer.From e₀.store) halted search) {e e' e'' : Environment}
    (grown : e₀.Grows e) {place : Option TypeId} {flags : Flags} {k : Collection} {r : Search}
    {x y : α}
    (collected : outcome (search Collection) ⟨e, .new place flags⟩ = (.ok x, ⟨e', k⟩))
    (searched : outcome (search Search) ⟨e, .new (some d) place flags⟩ = (.ok y, ⟨e'', r⟩)) :
    Verdict e₀.store d (.new (some d) place flags) k (halted y) r := by
  obtain ⟨log, ⟨answer, last⟩, course⟩ := h e grown
  have hd : ∀ t, d = .type t → e₀.store.Has (.type t) := by
    rintro t rfl
    exact ready.sound.closed.declared _ declared
  have verdict : ∀ {k' : Collection} {r' : Search} {stopped stopped' : Bool},
      outcome (replay log) (Collection.new place flags) = (.ok stopped, k') →
      outcome (replay log) (Search.new (some d) place flags) = (.ok stopped', r') →
        Verdict e₀.store d (.new (some d) place flags) k' stopped' r' := by
    refine replay_verdict ready.sound.closed.store names hd course.offers ?_ ?_ rfl rfl
    · exact List.not_mem_nil
    · rintro ⟨_, member, -⟩
      cases member
  have follows := course.follows Collection (.new place flags)
  have follows' := course.follows Search (.new (some d) place flags)
  revert follows follows'
  rcases replayed : outcome (replay log) (Collection.new place flags) with ⟨f | ⟨_ | _⟩, k'⟩
  · rintro ⟨_, run, -⟩
    rw [collected] at run
    cases run
  · intro run
    rw [collected] at run
    cases run
    rcases replayed' : outcome (replay log) (Search.new (some d) place flags) with ⟨f | ⟨_ | _⟩, r'⟩
    · rintro ⟨_, run', -⟩
      rw [searched] at run'
      cases run'
    · intro run'
      rw [searched] at run'
      cases run'
      rw [course.unhalted _ rfl]
      exact verdict replayed replayed'
    · rintro ⟨_, _, run', stopped, -⟩
      rw [searched] at run'
      cases run'
      rw [stopped]
      exact verdict replayed replayed'
  · exact absurd replayed replay_collection_ne_true

end Course

/-- The search for a declaration succeeds exactly if the collection hands it out. -/
theorem Verdict.succeeded_iff (ready : e₀.Ready c) {d : BindingId} (declared : d ∈ e₀.bindings)
    {around : TypeId} (plain : e₀.store.IsPlain around) {flags : Flags} {k k' : Collection}
    {r : Search} {stopped : Bool}
    (verdict : Verdict e₀.store d (.new (some d) (some around) flags) k stopped r)
    (settings : k.parentType = some around ∧ k.flags = flags) {s : Store} (grown : e₀.store.Grows s)
    {ds : List BindingId} (requested : outcome (Collection.requested s) k = (.ok ds, k')) :
    r.succeeded = true ↔ d ∈ ds := by
  rw [mem_requested requested d]
  cases verdict with
  | undecided absent => simp [Search.succeeded, Search.new, absent]
  | hidden absent signed unfound => simp [Search.succeeded, absent, unfound]
  | found taken signed found visible =>
    simp only [Search.succeeded, found, taken, Bool.true_and, true_and, settings.1, settings.2]
    by_cases checked : flags.checkVisibility = true
    · obtain ⟨s', grown', visible⟩ :
          ∃ s', e₀.store.Grows s' ∧ s'.isVisible d (some around) = .ok r.visible := by
        simpa [Search.new, checked] using visible
      obtain ⟨x, answers⟩ := requested_answers (settings.2 ▸ checked) requested d taken
      rw [settings.1] at answers
      have same : r.visible = x := by
        refine Store.isVisible_agree ready.sound.closed.store grown' grown ?_ ?_ visible answers
        · rintro t rfl
          exact ready.sound.closed.declared _ declared
        · rintro _ ⟨⟩
          exact plain.1
      simp [checked, answers, same]
    · have visible' : r.visible = true := by simpa [Search.new, checked] using visible
      simp [checked, visible']

namespace Scope

/-! ## The search at a name that ends with every stop -/

/-- Offers what a name alone may refer to, and ends with every stop. -/
def collectAtNameUntilStopped {σ : Type} [Request σ] (n : Node) (around : TypeId) (flags : Flags) :
    SearchM σ Bool := do
  let unit := (← get).environment.context.unit
  if ← collectLocal expressionType n (unit.charStart n) flags then return true
  let fuel := (← SearchM.read Environment.store).types.size + 1
  collectUntilStopped expressionType flags fuel around []

theorem hasCourse_collectAtNameUntilStopped (ready : e₀.Ready c) (n : Node) {around : TypeId}
    (plain : e₀.store.IsPlain around) (flags : Flags) :
    HasCourse e₀.Grows (Offer.From e₀.store) id fun _ _ =>
      collectAtNameUntilStopped n around flags := by
  refine .get_bind (fun σ _ e => collectLocal expressionType n (e.context.unit.charStart n) flags >>=
    fun stopped => if stopped then pure true else SearchM.read Environment.store >>= fun s =>
      collectUntilStopped expressionType flags (s.types.size + 1) around []) fun e grown => ?_
  apply (hasCourse_collectLocal (mayOffer_from ready) keeps_expressionType n _ flags).orElse
  exact .read_bind fun e grown =>
    hasCourse_collectUntilStopped ready keeps_expressionType flags _ plain []

/-- For a collection, the search at a name ends with every stop. -/
theorem outcome_collectAtName (n : Node) (around : TypeId) (flags : Flags)
    (st : Searching Collection) :
    outcome (collectAtName expressionType n around flags) st =
      outcome (collectAtNameUntilStopped n around flags) st := by
  have get : outcome get st = (.ok st, st) := rfl
  rw [collectAtName, collectAtNameUntilStopped, outcome_bind_of_ok get, outcome_bind_of_ok get,
    outcome_bind, outcome_bind]
  rcases outcome (collectLocal expressionType n (st.environment.context.unit.charStart n) flags) st
    with ⟨f | ⟨_ | _⟩, st₁⟩
  · rfl
  · exact outcome_collectTypesWith_collection expressionType flags _ around [] st₁
  · rfl

/-- The search for a declaration at a name is not settled by the local declarations, and overlooks a
member that hides the declaration. -/
def OverlooksAtName (n : Node) (around : TypeId) (flags : Flags) (st : Searching Search) : Prop :=
  ∃ st₁, outcome (collectLocal expressionType n (st.environment.context.unit.charStart n) flags) st =
      (.ok false, st₁) ∧
    Overlooks expressionType flags (st₁.environment.store.types.size + 1) around [] st₁

/-- The search for a declaration at a name answers whether the one that ends with every stop
succeeds, exactly if it overlooks nothing. -/
theorem searchAtName_eq_iff (n : Node) (around : TypeId) (flags : Flags)
    {st st' : Searching Search} {d : BindingId} (target : st.request.target = some d)
    (fresh : st.request.found = false) {b : Bool}
    (run : outcome (searchAtName n around flags) st = (.ok b, st')) :
    ∃ y st'', outcome (collectAtNameUntilStopped n around flags) st = (.ok y, st'') ∧
      (b = st''.request.succeeded ↔ ¬ OverlooksAtName n around flags st) := by
  have get : ∀ st : Searching Search, outcome get st = (.ok st, st) := fun _ => rfl
  rw [searchAtName, outcome_bind_of_ok (get st)] at run
  obtain ⟨stopped, st₁, locals, run⟩ := outcome_bind_eq_ok.1 run
  rw [outcome_bind_of_ok (get st₁)] at run
  rw [collectAtNameUntilStopped, outcome_bind_of_ok (get st), outcome_bind_of_ok locals]
  have settled : stopped = true → ¬ OverlooksAtName n around flags st := by
    rintro rfl ⟨st₂, locals', -⟩
    rw [locals] at locals'
    cases locals'
  cases stopped with
  | true =>
    -- a local has stopped the search, so both searches end here
    refine ⟨true, st₁, rfl, ?_⟩
    simp only [settled rfl, not_false_eq_true, iff_true]
    cases found : st₁.request.found with
    | true =>
      simp only [found, if_true] at run
      cases run
      simp [Search.succeeded, found]
    | false =>
      simp only [found, Bool.false_eq_true, if_false, if_true] at run
      cases run
      simp [Search.succeeded, found]
  | false =>
    -- no local has, so the request is as fresh as before
    have same : st₁.request = st.request :=
      (hasCourse_collectLocal (MayOffer.anything _) keeps_expressionType n _ flags).unstopped_search
        (Environment.Grows.refl _) target fresh locals rfl
    have unfound : st₁.request.found = false := by
      rw [same]
      exact fresh
    simp only [unfound, Bool.false_eq_true, if_false] at run
    obtain ⟨x, st₂, types, run⟩ := outcome_bind_eq_ok.1 run
    rw [outcome_bind_of_ok (get st₂)] at run
    cases run
    obtain ⟨y, st'', ends, agrees⟩ := succeeded_eq_iff (fun _ => keeps_expressionType) types
    refine ⟨y, st'', ends, agrees.trans (not_congr ⟨fun h => ⟨st₁, locals, h⟩, ?_⟩)⟩
    rintro ⟨st₃, locals', h⟩
    rw [locals] at locals'
    cases locals'
    exact h

/-! ## The two queries -/

/-- At a name that stands alone, the query for one declaration overlooks a member that hides it. -/
def Overlooked (e : Environment) (d : BindingId) (n : Node) (around : TypeId) (flags : Flags) :
    Prop :=
  ∃ e₁, outcome (qualifierOf expressionType (some n)) e = (.ok .absent, e₁) ∧
    OverlooksAtName n around flags ⟨e₁, .new (some d) (some around) flags⟩

variable {e e' e'' : Environment} {n : Node} {around : TypeId} {flags : Flags} {d : BindingId}
  {ds : List BindingId} {b : Bool}

/-- Asked of one environment, whether a declaration is in scope at a name, and which declarations
are in scope there, agree exactly if no member that hides the declaration is overlooked. -/
theorem isDeclaredInScope_iff_mem (built : Environment.build c = .ok e₀) (grown : e₀.Grows e)
    (names : ∀ m, '(' ∉ (e₀.store.method m).name.toList) (label : n.isLabelName = false)
    (inside : e.parentType n = some around) (enclosed : e.enclosingType n = some around)
    (declared : d ∈ e.bindings)
    (listed : outcome (declarationsInScope (.node (some n)) flags) e = (.ok ds, e'))
    (asked : outcome (isDeclaredInScope (some d) (.node (some n)) flags) e = (.ok b, e'')) :
    (b = true ↔ d ∈ ds) ↔ ¬ Overlooked e d n around flags := by
  have ready := Environment.build_ready built
  rw [grown.bindings] at declared
  have plain : e₀.store.IsPlain around := by
    rw [grown.enclosingType] at enclosed
    exact ready.plain around (Environment.declares_enclosingType enclosed)
  have get : outcome get e = (.ok e, e) := rfl
  have unlabelled : outcome (labelEnum expressionType n) e = (.ok none, e) := by
    rw [labelEnum, label]
    rfl
  have listed : outcome (declarationsAtName expressionType n flags) e = (.ok ds, e') := listed
  have asked : outcome (isDeclaredAt (some d) n flags) e = (.ok b, e'') := asked
  rw [declarationsAtName, outcome_bind_of_ok unlabelled] at listed
  rw [isDeclaredAt, outcome_bind_of_ok unlabelled] at asked
  dsimp only at listed asked
  rw [outcome_bind_of_ok get] at listed asked
  simp only [enclosed, inside] at listed asked
  obtain ⟨qualifier, e₁, qualified, listed⟩ := outcome_bind_eq_ok.1 listed
  rw [outcome_bind_of_ok qualified] at asked
  have grown₁ : e₀.Grows e₁ := by
    have kept := keeps_qualifierOf keeps_expressionType (some n) e grown
    rw [qualified] at kept
    exact kept
  have settings := keeps_settings (some around) flags
  have qualifiedElse : qualifier ≠ .absent → ¬ Overlooked e d n around flags := by
    rintro other ⟨e₂, alone, -⟩
    rw [qualified] at alone
    cases alone
    exact other rfl
  cases qualifier with
  | absent =>
    -- both queries search outwards from the name, and differ by what is overlooked
    obtain ⟨stopped, k, k', collected, requested⟩ := collected_eq_ok listed
    obtain ⟨⟨b', r⟩, e₂, started, asked⟩ := outcome_bind_eq_ok.1 asked
    cases asked
    have kept := keeps_collectAtName keeps_expressionType settings n around flags
      ⟨e₁, .new (some around) flags⟩ ⟨grown₁, rfl, rfl⟩
    rw [collected] at kept
    obtain ⟨y, st, searched, agrees⟩ :=
      searchAtName_eq_iff n around flags rfl rfl (outcome_start_eq_ok.1 started)
    have ends := outcome_collectAtName n around flags ⟨e₁, .new (some around) flags⟩
    have verdict := (hasCourse_collectAtNameUntilStopped ready n plain flags).verdict ready names
      declared grown₁ (ends.symm.trans collected) searched
    have found := verdict.succeeded_iff ready declared plain kept.2 kept.1.store requested
    have overlooked : Overlooked e d n around flags ↔
        OverlooksAtName n around flags ⟨e₁, .new (some d) (some around) flags⟩ := by
      refine ⟨?_, fun h => ⟨e₁, qualified, h⟩⟩
      rintro ⟨e₃, qualified', h⟩
      rw [qualified] at qualified'
      cases qualified'
      exact h
    rw [overlooked, ← agrees, ← found]
    exact Bool.eq_iff_iff.symm
  | type t =>
    -- after a qualifier both search its members, on one course
    obtain ⟨stopped, k, k', collected, requested⟩ := collected_eq_ok listed
    obtain ⟨x, st, collected, rest⟩ := outcome_bind_eq_ok.1 collected
    cases rest
    obtain ⟨⟨y, r⟩, e₂, started, asked⟩ := outcome_bind_eq_ok.1 asked
    cases asked
    have kept := keeps_collectInherited settings flags t [] ⟨e₁, .new (some around) flags⟩
      ⟨grown₁, rfl, rfl⟩
    rw [collected] at kept
    have verdict := (hasCourse_collectInherited (mayOffer_from ready) keeps_supertypes flags t
      []).verdict ready names declared grown₁ collected (outcome_start_eq_ok.1 started)
    have found := verdict.succeeded_iff ready declared plain kept.2 kept.1.store requested
    exact iff_of_true found (qualifiedElse (by rintro ⟨⟩))
  | unknown =>
    obtain ⟨stopped, k, k', collected, requested⟩ := collected_eq_ok listed
    cases collected
    cases asked
    have nothing : d ∉ ds := by
      rw [mem_requested requested]
      rintro ⟨member, -⟩
      cases member
    exact iff_of_true (iff_of_false Bool.false_ne_true nothing) (qualifiedElse (by rintro ⟨⟩))

/-! ## A hidden field -/

/-- `class A { int x; class B { int x; int m() { return x; } } }` -/
def hiddenField : Context :=
  .ofFile "class A \x7b int x; class B \x7b int x; int m() \x7b return x; \x7d \x7d \x7d" <|
    .named .program none 0 59 [
      .named .classDeclaration none 0 59 [
        .token "class" 0, .named .identifier (some .name) 6 7 [],
        .named .classBody (some .body) 8 59 [
          .token "\x7b" 8,
          .named .fieldDeclaration none 10 16 [
            .named .integralType (some .type) 10 13 [.token "int" 10],
            .named .variableDeclarator (some .declarator) 14 15 [
              .named .identifier (some .name) 14 15 []],
            .token ";" 15],
          .named .classDeclaration none 17 57 [
            .token "class" 17, .named .identifier (some .name) 23 24 [],
            .named .classBody (some .body) 25 57 [
              .token "\x7b" 25,
              .named .fieldDeclaration none 27 33 [
                .named .integralType (some .type) 27 30 [.token "int" 27],
                .named .variableDeclarator (some .declarator) 31 32 [
                  .named .identifier (some .name) 31 32 []],
                .token ";" 32],
              .named .methodDeclaration none 34 55 [
                .named .integralType (some .type) 34 37 [.token "int" 34],
                .named .identifier (some .name) 38 39 [],
                .named .formalParameters (some .parameters) 39 41 [
                  .token "(" 39, .token ")" 40],
                .named .block (some .body) 42 55 [
                  .token "\x7b" 42,
                  .named .returnStatement none 44 53 [
                    .token "return" 44, .named .identifier none 51 52 [], .token ";" 52],
                  .token "\x7d" 54]],
              .token "\x7d" 56]],
          .token "\x7d" 58]]]

/-- The name that `m` returns. -/
def returnedName : Node :=
  (hiddenField.root.preorder.find? fun n => n.kind == .identifier && n.start == 51).getD
    hiddenField.root

/-- The field of the outer class. -/
def outerField : BindingId :=
  .variable ⟨0⟩

set_option maxRecDepth 100000 in
theorem hiddenField_computed :
    (match Environment.build hiddenField with
    | .error _ => false
    | .ok e =>
      match e.parentType returnedName, e.enclosingType returnedName,
        outcome (declarationsInScope (.node (some returnedName)) .onlyVariables) e,
        outcome (isDeclaredInScope (some outerField) (.node (some returnedName)) .onlyVariables) e with
      | some inside, some around, (.ok ds, _), (.ok b, _) =>
        inside == around && (e.store.methods.all fun b => !b.name.toList.contains '(') &&
          decide (outerField ∈ e.bindings) && decide (outerField ∉ ds) && b
      | _, _, _, _ => false) = true := by
  decide +kernel

theorem hiddenField_answered :
    ∃ e around ds e' e'', Environment.build hiddenField = .ok e ∧
      (∀ m, '(' ∉ (e.store.method m).name.toList) ∧ e.parentType returnedName = some around ∧
      e.enclosingType returnedName = some around ∧ outerField ∈ e.bindings ∧
      outcome (declarationsInScope (.node (some returnedName)) .onlyVariables) e = (.ok ds, e') ∧
      outcome (isDeclaredInScope (some outerField) (.node (some returnedName)) .onlyVariables) e =
        (.ok true, e'') ∧
      outerField ∉ ds := by
  have computed := hiddenField_computed
  split at computed
  · cases computed
  · next e built =>
    split at computed
    · next inside around ds e' b e'' hinside haround listed asked =>
      simp only [Bool.and_eq_true, beq_iff_eq, decide_eq_true_eq] at computed
      obtain ⟨⟨⟨⟨rfl, names⟩, declared⟩, absent⟩, rfl⟩ := computed
      exact ⟨e, inside, ds, e', e'', built, Store.noParenthesis_of_all names, hinside, haround,
        declared, listed, asked, absent⟩
    · cases computed

/-- The field that the inner class hides is reported as reachable although it is not in scope. -/
theorem hiddenField_reported_as_reachable :
    ¬ ∀ (c : Context) (e e' e'' : Environment) (n : Node) (around : TypeId) (flags : Flags)
        (d : BindingId) (ds : List BindingId) (b : Bool),
      Environment.build c = .ok e → (∀ m, '(' ∉ (e.store.method m).name.toList) →
        n.kind = .identifier → n.isLabelName = false → e.parentType n = some around →
          e.enclosingType n = some around → d ∈ e.bindings →
          outcome (declarationsInScope (.node (some n)) flags) e = (.ok ds, e') →
            outcome (isDeclaredInScope (some d) (.node (some n)) flags) e = (.ok b, e'') →
              (b = true ↔ d ∈ ds) := by
  intro claim
  obtain ⟨e, around, ds, e', e'', built, names, inside, enclosed, declared, listed, asked, absent⟩ :=
    hiddenField_answered
  have agree := claim _ e e' e'' _ around _ _ ds true built names (by decide)
    (by decide) inside enclosed declared listed asked
  exact absent (agree.1 rfl)

theorem isDeclaredInScope_iff_mem_hiddenField :
    ∃ e around ds e' e'', Environment.build hiddenField = .ok e ∧
      (∀ m, '(' ∉ (e.store.method m).name.toList) ∧ returnedName.isLabelName = false ∧
      e.parentType returnedName = some around ∧ e.enclosingType returnedName = some around ∧
      outerField ∈ e.bindings ∧
      outcome (declarationsInScope (.node (some returnedName)) .onlyVariables) e = (.ok ds, e') ∧
      outcome (isDeclaredInScope (some outerField) (.node (some returnedName)) .onlyVariables) e =
        (.ok true, e'') ∧
      ((true = true ↔ outerField ∈ ds) ↔
        ¬ Overlooked e outerField returnedName around .onlyVariables) := by
  obtain ⟨e, around, ds, e', e'', built, names, inside, enclosed, declared, listed, asked, -⟩ :=
    hiddenField_answered
  have label : returnedName.isLabelName = false := by decide
  exact ⟨e, around, ds, e', e'', built, names, label, inside, enclosed, declared, listed, asked,
    isDeclaredInScope_iff_mem built (.refl e) names label inside enclosed declared listed asked⟩

end Scope

end JavaScope
