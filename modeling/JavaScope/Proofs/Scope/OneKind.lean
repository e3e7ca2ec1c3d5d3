import JavaScope.Proofs.Scope.OutwardsAbreast

/-!
# One kind of several

Asking a name for several kinds of declarations at once loses and reorders nothing: of each kind the
answer has, in order, what the name answers when it is asked for this kind alone.
-/

namespace JavaScope

variable {c : Context} {e₀ : Environment} {k : BindingKind} {flags : Flags}

/-! ## What is handed out -/

/-- Of what the first of two collections abreast hands out, the second one hands out the kind. -/
theorem Abreast.requested {tied : Prop} {st st' : Searching Collection}
    (abreast : Abreast e₀ k tied st st') (closed : e₀.Closed)
    (place : st'.request.parentType = st.request.parentType)
    (has : ∀ t ∈ st.request.parentType, e₀.store.Has (.type t))
    (checks : st'.request.flags.checkVisibility = st.request.flags.checkVisibility)
    {ds : List BindingId} {r : Collection}
    (run : outcome (Collection.requested st.environment.store) st.request = (.ok ds, r)) :
    ∃ r', outcome (Collection.requested st'.environment.store) st'.request =
      (.ok (ds.filter (·.kind == k)), r') := by
  obtain ⟨answers, rfl⟩ := requested_eq_ok_iff.1 ⟨r, run⟩
  have verdict : ∀ b ∈ st.request.bindings, st'.environment.store.isVisible b st.request.parentType =
      st.environment.store.isVisible b st.request.parentType := fun b hb =>
    ((abreast.apart closed).isVisible_eq (abreast.stored b hb) has).symm
  refine requested_eq_ok_iff.2 ⟨fun checked b hb => ?_, ?_⟩
  · rw [abreast.bindings] at hb
    have taken := (List.mem_filter.1 hb).1
    rw [place, verdict b taken]
    exact answers (checks ▸ checked) b taken
  · rw [Collection.shown, Collection.shown, checks, place, abreast.bindings]
    split
    · rw [List.filter_filter, List.filter_filter]
      refine List.filter_congr fun b hb => ?_
      rw [verdict b hb, Bool.and_comm]
    · rfl

namespace Scope

/-- Two searches that keep collections abreast collect the same of the kind. -/
theorem collected_only {tied : Prop} {place : Option TypeId} {search search' : SearchM Collection Bool}
    (closed : e₀.Closed) (has : ∀ t ∈ place, e₀.store.Has (.type t))
    (tracks : Tracks (Abreast e₀ k tied) search search' fun _ _ => Abreast e₀ k tied)
    (settings : Keeps (Searching.Within e₀.Grows fun r => r.parentType = place ∧ r.flags = flags)
      search)
    (settings' : Keeps (Searching.Within e₀.Grows fun r =>
      r.parentType = place ∧ r.flags = flags.only k) search')
    {e e' : Environment} (grown : e₀.Extends e) {ds : List BindingId}
    (run : outcome (collected (.new place flags) search) e = (.ok ds, e')) :
    ∃ e'', outcome (collected (.new place (flags.only k)) search') e =
      (.ok (ds.filter (·.kind == k)), e'') := by
  obtain ⟨stopped, r, r₁, searched, handed⟩ := collected_eq_ok run
  have start : Abreast e₀ k tied ⟨e, .new place flags⟩ ⟨e, .new place (flags.only k)⟩ :=
    ⟨grown, grown, fun _ => rfl, nofun, rfl, fun _ _ => Iff.rfl⟩
  obtain ⟨stopped', ⟨e'', r'⟩, searched', abreast⟩ := tracks _ _ start _ _ searched
  have kept := settings.ensures _ ⟨grown.toGrows, rfl, rfl⟩ _ _ searched
  have kept' := settings'.ensures _ ⟨grown.toGrows, rfl, rfl⟩ _ _ searched'
  have here : r.parentType = place := kept.2.1
  have here' : r'.parentType = place := kept'.2.1
  obtain ⟨r₁', handed'⟩ := abreast.requested closed (here'.trans here.symm)
    (by rw [here]; exact has) (by rw [kept.2.2, kept'.2.2]; rfl) handed
  exact ⟨e'', by rw [outcome_collected searched', handed']⟩

/-- The members of a type after a qualifier. -/
theorem tracks_qualified (closed : e₀.Closed) (asks : flags.asks k = true) (t : TypeId) :
    Tracks (Abreast e₀ k True) (collectInherited flags t [] >>= fun found => pure found.1)
      (collectInherited (flags.only k) t [] >>= fun found => pure found.1)
      fun _ _ => Abreast e₀ k True := by
  intro st st' abreast
  have twins : Twins e₀ True st.environment st'.environment t t := .kept (.inl trivial)
  have members := tracks_collectInherited closed asks (k := k) twins .nil
  have all : Tracks (AbreastFrom e₀ k True st.environment st'.environment)
      (collectInherited flags t [] >>= fun found => pure found.1)
      (collectInherited (flags.only k) t [] >>= fun found => pure found.1)
      fun _ _ => Abreast e₀ k True :=
    members.bind fun _ _ => .pure fun _ _ visit => visit.toAbreast
  exact all st st' ⟨abreast, .refl _, .refl _⟩

section Name

variable {typeOf : Typing} (built : Environment.build c = .ok e₀)
  (shape : c.document.tree.HasLeafNames) (plain : c.document.tree.HasPlainLambdas)
  (keeps : ∀ (I : Environment → Prop) [Environment.Lasts I] (n : Node), Keeps I (typeOf n))
  (asks : flags.asks k = true) {n : Node} (hn : n ∈ c.document.root.preorder)

include built shape plain keeps asks hn

/-- The declarations that a name alone may refer to, for several kinds and for one of them. -/
theorem parallel_collectAtName {around : TypeId} (first : Environment.MakesFirst c around) :
    Parallel e₀ k (k = .variable) (collectAtName typeOf n around flags)
      (collectAtName typeOf n around (flags.only k)) := by
  have locals : ∀ e e', e₀.Extends e → e₀.Extends e' → Parallel e₀ k (k = .variable)
      (collectLocal typeOf n (e.context.unit.charStart n) flags)
      (collectLocal typeOf n (e'.context.unit.charStart n) (flags.only k)) := by
    intro e e' grown grown'
    rw [grown.context, grown'.context]
    exact parallel_collectLocal built shape plain (keeps e₀.Extends) asks hn _
  have types := parallel_collectTypes built shape plain keeps asks first
  exact fun st st' abreast =>
    (locals _ _ abreast.first abreast.second).orElse types st st' abreast

/-- Asked at a name for one kind of several, the answer has this part of what it has for all of them. -/
theorem declarationsAtName_only {e e' : Environment} (grown : e₀.Extends e)
    (unlabelled : ∀ t e₁, outcome (labelEnum typeOf n) e ≠ (.ok (some t), e₁)) {ds : List BindingId}
    (listed : outcome (declarationsAtName typeOf n flags) e = (.ok ds, e')) :
    ∃ e'', outcome (declarationsAtName typeOf n (flags.only k)) e =
      (.ok (ds.filter (·.kind == k)), e'') := by
  have closed := (Environment.build_ready built).sound.closed
  rw [declarationsAtName] at listed
  obtain ⟨label, e₁, labelled, listed⟩ := outcome_bind_eq_ok.1 listed
  rw [declarationsAtName, outcome_bind_of_ok labelled]
  have grown₁ : e₀.Extends e₁ :=
    (keeps_labelEnum (keeps e₀.Extends) n).ensures e grown _ _ labelled
  cases label with
  | some t => exact absurd labelled (unlabelled t e₁)
  | none =>
    have get : outcome get e₁ = (.ok e₁, e₁) := rfl
    dsimp only at listed ⊢
    rw [outcome_bind_of_ok get] at listed ⊢
    cases enclosed : e₁.enclosingType n with
    | none =>
      rw [enclosed] at listed
      cases listed
      exact ⟨_, rfl⟩
    | some around =>
      rw [enclosed] at listed
      dsimp only at listed ⊢
      obtain ⟨qualifier, e₂, qualified, listed⟩ := outcome_bind_eq_ok.1 listed
      rw [outcome_bind_of_ok qualified]
      have grown₂ : e₀.Extends e₂ :=
        (keeps_qualifierOf (keeps e₀.Extends) (some n)).ensures e₁ grown₁ _ _ qualified
      have first : Environment.MakesFirst c around := by
        rw [grown₁.enclosingType] at enclosed
        exact Environment.makesFirst_of_declares built (Environment.declares_enclosingType enclosed)
      have has : ∀ t ∈ some around, e₀.store.Has (.type t) := by
        rintro _ ⟨⟩
        exact first.has built
      have settings := keeps_settings (some around)
      cases qualifier with
      | absent =>
        have tracks := parallel_collectAtName built shape plain keeps asks hn first
        exact collected_only closed has (tracks.weaken (fun _ _ h => h) fun _ _ _ _ h => h.2.2)
          (keeps_collectAtName (keeps e₀.Grows) (settings flags) n around flags)
          (keeps_collectAtName (keeps e₀.Grows) (settings (flags.only k)) n around (flags.only k))
          grown₂ listed
      | type t =>
        exact collected_only closed has (tracks_qualified closed asks t)
          ((keeps_collectInherited (settings flags) flags t []).bind fun found => .pure found.1)
          ((keeps_collectInherited (settings (flags.only k)) (flags.only k) t []).bind fun found =>
            .pure found.1) grown₂ listed
      | unknown =>
        have tracks : Tracks (Abreast e₀ k True) (pure false : SearchM Collection Bool) (pure false)
          fun _ _ => Abreast e₀ k True := .pure fun _ _ h => h
        exact collected_only closed has tracks (.pure false) (.pure false) grown₂ listed

end Name

/-! ## The query -/

/-- `class A { int x; int m(int y) { class L { } return y; } }` -/
def manyKinds : Context :=
  .ofFile "class A \x7b int x; int m(int y) \x7b class L \x7b \x7d return y; \x7d \x7d" <|
    .named .program none 0 57 [
      .named .classDeclaration none 0 57 [
        .token "class" 0, .named .identifier (some .name) 6 7 [],
        .named .classBody (some .body) 8 57 [
          .token "\x7b" 8,
          .named .fieldDeclaration none 10 16 [
            .named .integralType (some .type) 10 13 [.token "int" 10],
            .named .variableDeclarator (some .declarator) 14 15 [
              .named .identifier (some .name) 14 15 []],
            .token ";" 15],
          .named .methodDeclaration none 17 55 [
            .named .integralType (some .type) 17 20 [.token "int" 17],
            .named .identifier (some .name) 21 22 [],
            .named .formalParameters (some .parameters) 22 29 [
              .token "(" 22,
              .named .formalParameter none 23 28 [
                .named .integralType (some .type) 23 26 [.token "int" 23],
                .named .identifier (some .name) 27 28 []],
              .token ")" 28],
            .named .block (some .body) 30 55 [
              .token "\x7b" 30,
              .named .classDeclaration none 32 43 [
                .token "class" 32, .named .identifier (some .name) 38 39 [],
                .named .classBody (some .body) 40 43 [.token "\x7b" 40, .token "\x7d" 42]],
              .named .returnStatement none 44 53 [
                .token "return" 44, .named .identifier none 51 52 [], .token ";" 52],
              .token "\x7d" 54]],
          .token "\x7d" 56]]]

/-- The name that `m` returns. -/
def parameterReturned : Node :=
  (manyKinds.root.preorder.find? fun n => n.kind == .identifier && n.start == 51).getD manyKinds.root

set_option maxRecDepth 100000 in
theorem manyKinds_computed :
    (match Environment.build manyKinds with
    | .error _ => none
    | .ok e =>
      match outcome (declarationsInScope (.node (some parameterReturned)) (.ofInt (-1))) e with
      | (.ok ds, _) => some ds
      | (.error _, _) => none) =
      some [.type ⟨1⟩, .variable ⟨1⟩, .type ⟨0⟩, .variable ⟨0⟩, .method ⟨0⟩] := by
  decide +kernel

/-- The name `X` in a label of the `switch` whose expression has a type with an endless key. -/
def labelOperand : Node :=
  (LocalWalk.endlessKey.root.preorder.find? fun n => n.kind == .identifier && n.start == 67).getD
    LocalWalk.endlessKey.root

set_option maxRecDepth 100000 in
theorem labelOperand_computed :
    (match Environment.build LocalWalk.endlessKey with
    | .error _ => none
    | .ok e =>
      match outcome (declarationsInScope (.node (some labelOperand)) ⟨false, true, true, false⟩) e,
        outcome (declarationsInScope (.node (some labelOperand)) .onlyTypes) e with
      | (.error f, _), (.ok ds, _) => some (f, ds)
      | _, _ => none) = some (.endless, [.type ⟨1⟩, .type ⟨0⟩]) := by
  decide +kernel

end Scope

end JavaScope
