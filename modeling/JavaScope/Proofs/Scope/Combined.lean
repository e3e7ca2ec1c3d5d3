import JavaScope.Proofs.Scope.Access
import JavaScope.Proofs.Scope.History

/-!
# Queries for several kinds at code

At a method or a statement, a query for several kinds reports what the queries for single kinds
report, up to bindings of one signature and except for the methods whose results are returned: for
those a `return` is looked at only if no variables are asked for.
-/

namespace JavaScope

theorem mem_distinct {α : Type} [DecidableEq α] {xs : List α} {x : α} : x ∈ distinct xs ↔ x ∈ xs := by
  have general : ∀ seen : List α,
      x ∈ xs.foldl (fun seen y => if y ∈ seen then seen else seen ++ [y]) seen ↔ x ∈ seen ∨ x ∈ xs := by
    induction xs with
    | nil => simp
    | cons y ys ih =>
      intro seen
      rw [List.foldl_cons, ih, List.mem_cons]
      split
      · next known =>
        constructor
        · rintro (h | h)
          · exact .inl h
          · exact .inr (.inr h)
        · rintro (h | rfl | h)
          · exact .inl h
          · exact .inl known
          · exact .inr h
      · simp [or_assoc]
  rw [distinct, general]
  simp

theorem Flags.union_comm (f g : Flags) : f ∪ g = g ∪ f := by
  show Flags.union f g = Flags.union g f
  simp only [Flags.union, Bool.or_comm]

namespace Scope

/-! ## The uses that a location reports -/

/-- The point after the start of a node. -/
def pointAfter (e : Environment) (n : Node) (flags : Flags) : ScopePoint :=
  ⟨e.context.unit, e.bindingOf, e.context.unit.charStart n, flags⟩

/-- The uses after the start of a node, in the block that a query looks at. -/
def usesAfter (e : Environment) (n : Node) (flags : Flags) (onlyAround : Bool) : List Use :=
  (n.laterBlock onlyAround).toList.flatMap (usesIn (pointAfter e n flags) e.document)

/-- The uses that are reported at a method or a statement: a method itself, and what is declared or
used after its start. -/
def usesOfCode (e : Environment) (n : Node) (flags : Flags) : List Use :=
  Use.onlyIf (n.kind.isMethodDeclaration && flags.methods) (.declaration n) ++
    (usesAfter e n flags false ++ usesAfter e n flags true)

/-- The invocations whose results are returned after the start of a node. -/
def returnedCallsAfter (e : Environment) (n : Node) : List Node :=
  [false, true].flatMap fun onlyAround => (n.laterBlock onlyAround).toList.flatMap fun block =>
    (block.visited (entersLater e.bindingOf)).filterMap (returnedCall (pointAfter e n .none))

section Reports

variable {e e₁ e₂ : Environment} {n : Node} {flags : Flags} {ds : List BindingId}

theorem usesAfter_eq (grown : e.Grows e₁) : usesAfter e₁ n flags = usesAfter e n flags := by
  funext onlyAround
  simp only [usesAfter, pointAfter, grown.context, grown.bindingOf, grown.document]

theorem usesOfCode_eq (grown : e.Grows e₁) : usesOfCode e₁ n flags = usesOfCode e n flags := by
  rw [usesOfCode, usesOfCode, usesAfter_eq grown]

/-- What comes after the start of a node is reported, and can be offered again. -/
theorem reports_declarationsAfter {onlyAround : Bool} (closed : e.Closed) (grown : e.Grows e₁)
    (closed₁ : e₁.Closed)
    (run : outcome (declarationsAfter expressionType n flags onlyAround) e₁ = (.ok ds, e₂)) :
    Reports e (usesAfter e n flags onlyAround) ds e₂ ∧
      (∀ u ∈ usesAfter e n flags onlyAround, u.IsOfferable e₂ e.bindingOf) ∧
      e₁.Grows e₂ ∧ e₂.Closed := by
  unfold declarationsAfter at run
  unfold usesAfter
  cases laterBlock : n.laterBlock onlyAround with
  | none =>
    rw [laterBlock] at run
    cases run
    exact ⟨⟨nofun, nofun⟩, nofun, .refl _, closed₁⟩
  | some block =>
    rw [laterBlock] at run
    simp only [Option.toList_some, List.flatMap_singleton]
    dsimp only at run
    rw [outcome_bind_of_ok (outcome_get e₁)] at run
    obtain ⟨stopped, k, k', searched, requested⟩ := collected_eq_ok run
    rw [grown.context, grown.bindingOf, grown.document] at searched
    have kept := keeps_search (keeps_lookLater (keeps_settings none .none) (pointAfter e n flags)
      e.document) block ⟨e₁, .new none .none⟩ ⟨Environment.Grows.refl e₁, rfl, rfl⟩
    rw [pointAfter, searched] at kept
    rw [search_lookLater] at searched
    obtain ⟨gathers, grown', closed₂⟩ :=
      (Gathers.new none .none).offerAll closed _ grown closed₁ searched
    refine ⟨gathers.reports.of_mem_iff fun d => ?_, gathers.offerable, grown', closed₂⟩
    rw [mem_requested requested, kept.2.2]
    simp [Flags.none]

/-- At a method or a statement, a query lists the method and what comes after its start. -/
theorem outcome_declarationsInScope_of_selectsCode {l : Location}
    (selected : e.context.firstCovered l = some n)
    (code : (Selector.location l).selectsCode n = true) :
    outcome (declarationsInScope (.location l) flags) e = outcome (do
      let inside ← declarationsAfter expressionType n flags false
      let around ← declarationsAfter expressionType n flags true
      return distinct ((if n.kind.isMethodDeclaration && flags.methods then
        (e.bindingOf n).toList else []) ++ inside ++ around)) e := by
  obtain ⟨name, code⟩ : n.kind ≠ .identifier ∧
      (n.kind.isMethodDeclaration || n.kind.isStatement) = true := by
    simpa [Selector.selectsCode] using code
  have name' : (n.kind == .identifier) = false := by simpa using name
  have select : outcome (selectedNode l) e = (.ok (some n), e) := by
    rw [← selected]
    rfl
  show outcome (declarationsAtLocation l flags) e = _
  rw [declarationsAtLocation, outcome_bind_of_ok select]
  simp only [name', code, Bool.false_eq_true, if_false, if_true]
  rw [outcome_bind_of_ok (outcome_get e)]

/-- A location that selects code reports the uses that the flags ask for. Those after its start can
be offered again. -/
theorem reports_declarationsInScope {l : Location} (closed : e.Closed)
    (selected : e.context.firstCovered l = some n)
    (code : (Selector.location l).selectsCode n = true)
    (run : outcome (declarationsInScope (.location l) flags) e = (.ok ds, e₁)) :
    Reports e (usesOfCode e n flags) ds e₁ ∧
      ∀ onlyAround, ∀ u ∈ usesAfter e n flags onlyAround, u.IsOfferable e₁ e.bindingOf := by
  rw [outcome_declarationsInScope_of_selectsCode selected code] at run
  obtain ⟨inside, e', first, run⟩ := outcome_bind_eq_ok.1 run
  obtain ⟨around, e'', second, run⟩ := outcome_bind_eq_ok.1 run
  cases run
  obtain ⟨reports, offerable, grown, closed'⟩ := reports_declarationsAfter closed (.refl e) closed first
  obtain ⟨reports', offerable', grown', -⟩ := reports_declarationsAfter closed grown closed' second
  have self : Reports e (Use.onlyIf (n.kind.isMethodDeclaration && flags.methods) (.declaration n))
      (if n.kind.isMethodDeclaration && flags.methods then (e.bindingOf n).toList else []) e₁ := by
    have finds : Use.Resolves e (.declaration n) (e.bindingOf n) e₁ :=
      ⟨closed, e, e, .refl e, closed, rfl, grown.trans grown'⟩
    unfold Use.onlyIf
    split
    · refine ⟨fun u hu => ?_, fun d hd => ?_⟩
      · cases List.mem_singleton.1 hu
        exact ⟨_, finds, fun d hd => ⟨d, by simpa using hd, rfl⟩⟩
      · refine ⟨_, List.mem_singleton_self _, ?_⟩
        rwa [Option.mem_toList.1 hd] at finds
    · exact ⟨by rintro _ ⟨⟩, by rintro _ ⟨⟩⟩
  refine ⟨(self.append ((reports.later grown').append reports')).of_mem_iff fun d => ?_, ?_⟩
  · rw [mem_distinct, List.append_assoc]
  · rintro (_ | _) u hu
    · exact (offerable u hu).later grown'
    · exact offerable' u hu

/-- What can be offered after the start of a node is listed. -/
theorem exists_outcome_declarationsAfter {onlyAround : Bool} (grown : e.Grows e₁)
    (offerable : ∀ u ∈ usesAfter e n flags onlyAround, u.IsOfferable e₁ e.bindingOf) :
    ∃ ds e₂, outcome (declarationsAfter expressionType n flags onlyAround) e₁ = (.ok ds, e₂) ∧
      e₁.Grows e₂ := by
  unfold declarationsAfter
  unfold usesAfter at offerable
  cases laterBlock : n.laterBlock onlyAround with
  | none => exact ⟨[], e₁, rfl, .refl e₁⟩
  | some block =>
    rw [laterBlock] at offerable
    simp only [Option.toList_some, List.flatMap_singleton] at offerable
    dsimp only
    rw [outcome_bind_of_ok (outcome_get e₁), grown.context, grown.bindingOf, grown.document]
    let start : Searching Collection := ⟨e₁, .new none .none⟩
    have here : e₁.Grows start.environment := .refl e₁
    obtain ⟨⟨e₂, k⟩, run⟩ := Use.exists_outcome_offerAll offerable here
    have searched : outcome (block.search (lookLater expressionType (pointAfter e n flags) e.document))
        start = (.ok false, ⟨e₂, k⟩) := by
      rw [search_lookLater]
      exact run
    have kept := keeps_search (keeps_lookLater (keeps_settings none .none) (pointAfter e n flags)
      e.document) block ⟨e₁, .new none .none⟩ ⟨Environment.Grows.refl e₁, rfl, rfl⟩
    rw [searched] at kept
    have unchecked : k.flags.checkVisibility = false := congrArg Flags.checkVisibility kept.2.2
    refine ⟨k.bindings, e₂, (outcome_collected searched).trans ?_, kept.1⟩
    rw [Collection.outcome_requested_of_unchecked unchecked]

/-- At a method or a statement, a query answers if what comes after its start can be offered. -/
theorem exists_outcome_declarationsInScope {l : Location} (grown : e.Grows e₁)
    (selected : e₁.context.firstCovered l = some n)
    (code : (Selector.location l).selectsCode n = true)
    (offerable : ∀ onlyAround, ∀ u ∈ usesAfter e n flags onlyAround, u.IsOfferable e₁ e.bindingOf) :
    ∃ ds e₂, outcome (declarationsInScope (.location l) flags) e₁ = (.ok ds, e₂) := by
  obtain ⟨inside, e', first, grown'⟩ := exists_outcome_declarationsAfter grown (offerable false)
  obtain ⟨around, e'', second, -⟩ := exists_outcome_declarationsAfter (grown.trans grown')
    fun u hu => (offerable true u hu).later grown'
  rw [outcome_declarationsInScope_of_selectsCode selected code, outcome_bind_of_ok first,
    outcome_bind_of_ok second]
  exact ⟨_, e'', rfl⟩

end Reports

/-! ## The uses for several kinds -/

theorem mem_usesAfter_union {e : Environment} {n : Node} {f g : Flags} {onlyAround : Bool} {u : Use}
    (h : u ∈ usesAfter e n f onlyAround) :
    u ∈ usesAfter e n (f ∪ g) onlyAround ∨
      losesCalls f g = true ∧ ∃ value ∈ returnedCallsAfter e n, u = .call value := by
  obtain ⟨block, hblock, hu⟩ := List.mem_flatMap.1 h
  obtain ⟨m, visited, hu⟩ := List.mem_flatMap.1 hu
  rcases mem_usesAt_union (pointAfter e n f) e.document f g hu with hu | ⟨lost, value, returned, rfl⟩
  · exact .inl (List.mem_flatMap.2 ⟨block, hblock, List.mem_flatMap.2 ⟨m, visited, hu⟩⟩)
  · refine .inr ⟨lost, value, ?_, rfl⟩
    refine List.mem_flatMap.2 ⟨onlyAround, by cases onlyAround <;> simp, ?_⟩
    refine List.mem_flatMap.2 ⟨block, hblock, List.mem_filterMap.2 ⟨m, visited, returned⟩⟩

/-- A query for more kinds comes to no use but those of the queries for some of them. -/
theorem mem_usesAfter_of_union {e : Environment} {n : Node} {f g : Flags} {onlyAround : Bool} {u : Use}
    (h : u ∈ usesAfter e n (f ∪ g) onlyAround) :
    u ∈ usesAfter e n f onlyAround ∨ u ∈ usesAfter e n g onlyAround := by
  obtain ⟨block, hblock, hu⟩ := List.mem_flatMap.1 h
  obtain ⟨m, visited, hu⟩ := List.mem_flatMap.1 hu
  refine (mem_usesAt_of_union (pointAfter e n f) e.document f g hu).imp (fun hu => ?_) fun hu => ?_
  all_goals exact List.mem_flatMap.2 ⟨block, hblock, List.mem_flatMap.2 ⟨m, visited, hu⟩⟩

/-- A query for more kinds reports the uses that a query for some does, but for returned calls. -/
theorem mem_usesOfCode_union {e : Environment} {n : Node} {f g : Flags} {u : Use}
    (h : u ∈ usesOfCode e n f) :
    u ∈ usesOfCode e n (f ∪ g) ∨
      losesCalls f g = true ∧ ∃ value ∈ returnedCallsAfter e n, u = .call value := by
  unfold usesOfCode at h ⊢
  have methods : f.methods = true → (f ∪ g).methods = true := by
    intro h
    show (f.methods || g.methods) = true
    simp [h]
  rcases List.mem_append.1 h with hu | hu
  · refine .inl (List.mem_append_left _ (onlyIf_mono (fun asked => ?_) hu))
    simp only [Bool.and_eq_true] at asked ⊢
    exact ⟨asked.1, methods asked.2⟩
  · rcases List.mem_append.1 hu with hu | hu
    · exact (mem_usesAfter_union hu).imp_left fun h => by simp [h]
    · exact (mem_usesAfter_union hu).imp_left fun h => by simp [h]

theorem call_mem_usesOfCode {e : Environment} {n value : Node} {f g : Flags}
    (lost : losesCalls f g = true) (h : value ∈ returnedCallsAfter e n) :
    .call value ∈ usesOfCode e n f := by
  obtain ⟨onlyAround, -, h⟩ := List.mem_flatMap.1 h
  obtain ⟨block, hblock, h⟩ := List.mem_flatMap.1 h
  obtain ⟨m, visited, returned⟩ := List.mem_filterMap.1 h
  have used : .call value ∈ usesAfter e n f onlyAround :=
    List.mem_flatMap.2 ⟨block, hblock, List.mem_flatMap.2 ⟨m, visited,
      call_mem_usesAt (pointAfter e n f) e.document f g lost returned⟩⟩
  cases onlyAround <;> simp [usesOfCode, used]

/-! ## What a query for several kinds represents -/

/-- One of the bindings has the signature. -/
def Represents (e : Environment) (ds : List BindingId) (signature : Except Fault String) : Prop :=
  ∃ d ∈ ds, e.store.signature d = signature

/-- What a use refers to is represented where the use is reported. -/
theorem Reports.represents {e e₁ e₂ e₃ : Environment} {uses : List Use} {us : List BindingId} {u : Use}
    {d : BindingId} (h : Reports e₂ uses us e₃) (hu : u ∈ uses) (finds : u.Resolves e (some d) e₁)
    (same : e₂.bindingOf = e.bindingOf) (order : e₁.Grows e₂ ∨ e₃.Grows e) :
    Represents e₃ us (e₁.store.signature d) := by
  obtain ⟨b, finds', represented⟩ := h.found u hu
  obtain ⟨rfl, signatures⟩ := finds.agree finds' same order
  obtain ⟨d', hd', same'⟩ := represented d rfl
  exact ⟨d', hd', same'.trans (signatures d rfl)⟩

section Union

variable {c : Context} {e₀ e₁ e₂ e₃ e₄ e₁' e₂' e₃' : Environment} {l : Location} {n : Node}
  {f g : Flags} {ds ds' : List BindingId}

/-- What one query reports is represented in the query for more kinds, exactly if the calls are that
this query loses, whatever these are told to call afterwards. -/
theorem represents_iff_of_reports (grown₁ : e₀.Grows e₁) (grown₃ : e₀.Grows e₃)
    {us : List BindingId} (reports : Reports e₁ (usesOfCode e₁ n f) ds e₁')
    (both : Reports e₃ (usesOfCode e₃ n (f ∪ g)) us e₃')
    (order : e₁'.Grows e₃ ∨ e₃'.Grows e₁) (after : e₁'.Grows e₄) :
    (∀ d ∈ ds, Represents e₃' us (e₁'.store.signature d)) ↔
      (losesCalls f g = true → ∀ value ∈ returnedCallsAfter e₀ n, ∀ m e',
        outcome (invoked expressionType value) e₄ = (.ok (some m), e') →
          Represents e₃' us (e'.store.signature m)) := by
  rw [usesOfCode_eq grown₁] at reports
  rw [usesOfCode_eq grown₃] at both
  have same : e₃.bindingOf = e₁.bindingOf := grown₃.bindingOf.trans grown₁.bindingOf.symm
  -- a call that is told afterwards is told as it was for the query
  have told : ∀ {value : Node} {b : Option BindingId}, (Use.call value).Resolves e₁ b e₁' →
      ∃ e', outcome (invoked expressionType value) e₄ = (.ok b, e') ∧ e₄.Grows e' :=
    fun finds => finds.again after
  constructor
  · intro represented lost value hvalue m e' call
    obtain ⟨b, finds, listed⟩ := reports.found _ (call_mem_usesOfCode lost hvalue)
    obtain ⟨e'', call', grown'⟩ := told finds
    rw [call] at call'
    cases call'
    obtain ⟨d, hd, signature⟩ := listed m rfl
    rw [finds.signature_eq (after.trans grown'), ← signature]
    exact represented d hd
  · intro returned d hd
    obtain ⟨u, hu, finds⟩ := reports.origin d hd
    rcases mem_usesOfCode_union (g := g) hu with used | ⟨lost, value, hvalue, rfl⟩
    · exact both.represents used finds same order
    · obtain ⟨e', call, grown'⟩ := told finds
      rw [← finds.signature_eq (after.trans grown')]
      exact returned lost value hvalue d e' call

/-- At a method or a statement, two queries that have answered are followed by an answer of the query
for the kinds of both. All that they report is represented there, exactly if, where this query adds
variables to methods, the methods are that returned calls call. The queries may be asked in any order,
with other ones in between; what the calls call is asked at last. -/
theorem declarationsInScope_union_represents_iff (built : Environment.build c = .ok e₀)
    (selected : e₀.context.firstCovered l = some n)
    (code : (Selector.location l).selectsCode n = true) (before₁ : History e₀ e₁)
    (before₂ : History e₀ e₂) (before₃ : History e₀ e₃)
    (asked₁ : outcome (declarationsInScope (.location l) f) e₁ = (.ok ds, e₁'))
    (asked₂ : outcome (declarationsInScope (.location l) g) e₂ = (.ok ds', e₂'))
    (after₁ : History e₁' e₄) (after₂ : History e₂' e₄) :
    (History e₁' e₃ → History e₂' e₃ →
      ∃ us e₃', outcome (declarationsInScope (.location l) (f ∪ g)) e₃ = (.ok us, e₃')) ∧
    ∀ us e₃', outcome (declarationsInScope (.location l) (f ∪ g)) e₃ = (.ok us, e₃') →
      History e₁' e₃ ∨ History e₃' e₁ → History e₂' e₃ ∨ History e₃' e₂ →
        (((∀ d ∈ ds, Represents e₃' us (e₁'.store.signature d)) ∧
            ∀ d ∈ ds', Represents e₃' us (e₂'.store.signature d)) ↔
          (losesCalls f g = true ∨ losesCalls g f = true →
            ∀ value ∈ returnedCallsAfter e₀ n, ∀ m e',
              outcome (invoked expressionType value) e₄ = (.ok (some m), e') →
                Represents e₃' us (e'.store.signature m))) := by
  have closed := (Environment.build_ready built).sound.closed
  have selects : ∀ {e : Environment}, History e₀ e → e.context.firstCovered l = some n := by
    intro e before
    rw [before.grows.context, selected]
  obtain ⟨reports₁, offerable₁⟩ :=
    reports_declarationsInScope (before₁.closed closed) (selects before₁) code asked₁
  obtain ⟨reports₂, offerable₂⟩ :=
    reports_declarationsInScope (before₂.closed closed) (selects before₂) code asked₂
  refine ⟨fun first second => ?_, fun us e₃' asked₃ order₁ order₂ => ?_⟩
  · refine exists_outcome_declarationsInScope before₃.grows (selects before₃) code ?_
    intro onlyAround u hu
    rw [usesAfter_eq before₁.grows, before₁.grows.bindingOf] at offerable₁
    rw [usesAfter_eq before₂.grows, before₂.grows.bindingOf] at offerable₂
    rcases mem_usesAfter_of_union hu with hu | hu
    · exact (offerable₁ onlyAround u hu).later first.grows
    · exact (offerable₂ onlyAround u hu).later second.grows
  · obtain ⟨both, -⟩ :=
      reports_declarationsInScope (before₃.closed closed) (selects before₃) code asked₃
    have swap : f ∪ g = g ∪ f := Flags.union_comm f g
    rw [represents_iff_of_reports before₁.grows before₃.grows reports₁ both
        (order₁.imp History.grows History.grows) after₁.grows,
      represents_iff_of_reports before₂.grows before₃.grows reports₂ (swap ▸ both)
        (order₂.imp History.grows History.grows) after₂.grows]
    constructor
    · rintro ⟨first, second⟩ (lost | lost)
      · exact first lost
      · exact second lost
    · intro h
      exact ⟨fun lost => h (.inl lost), fun lost => h (.inr lost)⟩

end Union

/-- `class A { int f() { int x = 1; return f(); } }` -/
def returnedCallFile : Context :=
  .ofFile "class A \x7b int f() \x7b int x = 1; return f(); \x7d \x7d" <|
    .named .program none 0 46 [
      .named .classDeclaration none 0 46 [
        .token "class" 0, .named .identifier (some .name) 6 7 [],
        .named .classBody (some .body) 8 46 [
          .token "\x7b" 8,
          .named .methodDeclaration none 10 44 [
            .named .integralType (some .type) 10 13 [.token "int" 10],
            .named .identifier (some .name) 14 15 [],
            .named .formalParameters (some .parameters) 15 17 [.token "(" 15, .token ")" 16],
            .named .block (some .body) 18 44 [
              .token "\x7b" 18,
              .named .localVariableDeclaration none 20 30 [
                .named .integralType (some .type) 20 23 [.token "int" 20],
                .named .variableDeclarator (some .declarator) 24 29 [
                  .named .identifier (some .name) 24 25 [], .token "=" 26,
                  .named .decimalIntegerLiteral (some .value) 28 29 []],
                .token ";" 29],
              .named .returnStatement none 31 42 [
                .token "return" 31,
                .named .methodInvocation none 38 41 [
                  .named .identifier (some .name) 38 39 [],
                  .named (.other "argument_list") (some .arguments) 39 41 [
                    .token "(" 39, .token ")" 40]],
                .token ";" 41],
              .token "\x7d" 43]],
          .token "\x7d" 45]]]

/-- The location of the declaration of `x`. -/
def declarationOfX : Location :=
  ⟨none, ⟨0, 20, 20⟩, ⟨0, 30, 30⟩, by decide, nofun⟩

set_option maxRecDepth 100000 in
theorem returnedCallFile_computed :
    (match Environment.build returnedCallFile with
    | .error _ => none
    | .ok e =>
      match e.context.firstCovered declarationOfX,
        outcome (declarationsInScope (.location declarationOfX) .onlyMethods) e with
      | some n, (.ok ds, e₁) =>
        match outcome (declarationsInScope (.location declarationOfX) .onlyVariables) e₁ with
        | (.ok _, e₂) =>
          match outcome (declarationsInScope (.location declarationOfX)
            (.onlyMethods ∪ .onlyVariables)) e₂ with
          | (.ok us, e₃) =>
            some ((Selector.location declarationOfX).selectsCode n,
              ds.map fun d => (e₁.store.signature d).toOption,
              us.map fun d => (e₃.store.signature d).toOption)
          | _ => none
        | _ => none
      | _, _ => none) =
      some (true, [some "Mf()"], [some "Vx"]) := by
  decide +kernel

theorem returnedCallFile_answered :
    ∃ e n ds ds' us e₁ e₂ e₃, Environment.build returnedCallFile = .ok e ∧
      e.context.firstCovered declarationOfX = some n ∧
      (Selector.location declarationOfX).selectsCode n = true ∧
      outcome (declarationsInScope (.location declarationOfX) .onlyMethods) e = (.ok ds, e₁) ∧
      outcome (declarationsInScope (.location declarationOfX) .onlyVariables) e₁ = (.ok ds', e₂) ∧
      outcome (declarationsInScope (.location declarationOfX) (.onlyMethods ∪ .onlyVariables)) e₂ =
        (.ok us, e₃) ∧
      ∃ d ∈ ds, ¬ Represents e₃ us (e₁.store.signature d) := by
  have computed := returnedCallFile_computed
  split at computed
  · cases computed
  · next e built =>
    split at computed
    · next n ds e₁ selected asked₁ =>
      split at computed
      · next ds' e₂ asked₂ =>
        split at computed
        · next us e₃ asked₃ =>
          simp only [Option.some.injEq, Prod.mk.injEq] at computed
          obtain ⟨code, first, both⟩ := computed
          refine ⟨e, n, ds, ds', us, e₁, e₂, e₃, built, selected, code, asked₁, asked₂, asked₃, ?_⟩
          obtain ⟨d, rfl, signature⟩ := List.map_eq_singleton_iff.1 first
          obtain ⟨d', rfl, signature'⟩ := List.map_eq_singleton_iff.1 both
          refine ⟨d, List.mem_singleton_self d, ?_⟩
          rintro ⟨d'', member, same⟩
          rw [List.mem_singleton.1 member] at same
          rw [same, signature] at signature'
          exact absurd signature' (by decide)
        · cases computed
      · cases computed
    · cases computed

/-- The call that is returned is lost as soon as variables are asked for along with methods. -/
theorem returnedCall_lost_among_variables :
    ¬ ∀ (c : Context) (e e₁ e₂ e₃ : Environment) (l : Location) (n : Node) (f g : Flags)
        (ds ds' us : List BindingId),
      Environment.build c = .ok e → e.context.firstCovered l = some n →
        (n.kind.isMethodDeclaration || n.kind.isStatement) = true →
          outcome (declarationsInScope (.location l) f) e = (.ok ds, e₁) →
          outcome (declarationsInScope (.location l) g) e₁ = (.ok ds', e₂) →
            outcome (declarationsInScope (.location l) (f ∪ g)) e₂ = (.ok us, e₃) →
              ∀ d ∈ ds, ∃ u ∈ us, e₃.store.signature u = e₁.store.signature d := by
  intro claim
  obtain ⟨e, n, ds, ds', us, e₁, e₂, e₃, built, selected, code, asked₁, asked₂, asked₃, d, hd, lost⟩ :=
    returnedCallFile_answered
  have code' : n.kind ≠ .identifier ∧ (n.kind.isMethodDeclaration || n.kind.isStatement) = true := by
    simpa [Selector.selectsCode] using code
  exact lost (claim _ e e₁ e₂ e₃ _ n _ _ ds ds' us built selected code'.2 asked₁ asked₂ asked₃ d hd)

theorem declarationsInScope_union_represents_iff_returnedCall :
    ∃ e n ds ds' us e₁ e₂ e₃, Environment.build returnedCallFile = .ok e ∧
      e.context.firstCovered declarationOfX = some n ∧
      (Selector.location declarationOfX).selectsCode n = true ∧
      outcome (declarationsInScope (.location declarationOfX) .onlyMethods) e = (.ok ds, e₁) ∧
      outcome (declarationsInScope (.location declarationOfX) .onlyVariables) e₁ = (.ok ds', e₂) ∧
      outcome (declarationsInScope (.location declarationOfX) (.onlyMethods ∪ .onlyVariables)) e₂ =
        (.ok us, e₃) ∧
      (∃ us' e', outcome (declarationsInScope (.location declarationOfX)
        (.onlyMethods ∪ .onlyVariables)) e₂ = (.ok us', e')) ∧
      (((∀ d ∈ ds, Represents e₃ us (e₁.store.signature d)) ∧
          ∀ d ∈ ds', Represents e₃ us (e₂.store.signature d)) ↔
        (losesCalls .onlyMethods .onlyVariables = true ∨ losesCalls .onlyVariables .onlyMethods = true →
          ∀ value ∈ returnedCallsAfter e n, ∀ m e',
            outcome (invoked expressionType value) e₃ = (.ok (some m), e') →
              Represents e₃ us (e'.store.signature m))) := by
  obtain ⟨e, n, ds, ds', us, e₁, e₂, e₃, built, selected, code, asked₁, asked₂, asked₃, -⟩ :=
    returnedCallFile_answered
  have first : History e e₁ := History.start.answered asked₁
  have second : History e₁ e₂ := History.start.answered asked₂
  have third : History e₂ e₃ := History.start.answered asked₃
  obtain ⟨answers, represents⟩ := declarationsInScope_union_represents_iff built selected code .start
    first (first.answered asked₂) asked₁ asked₂ (second.answered asked₃) third
  exact ⟨e, n, ds, ds', us, e₁, e₂, e₃, built, selected, code, asked₁, asked₂, asked₃,
    answers second .start, represents us e₃ asked₃ (.inl second) (.inl .start)⟩

end Scope

end JavaScope
