import JavaScope.Proofs.Environment.Derived
import JavaScope.Proofs.Scope.Growth
import JavaScope.Proofs.Text.Boundary
import JavaScope.Proofs.Tree

/-!
# Types of array creations

The dimensions of an array creation are counted in the text of the nodes that spell them. Every
dimension opens a bracket of its own, but the expression for its length may have brackets in its text
as well, and so may an annotation or a comment. So the type of an array creation has a dimension for
every length and for every empty pair of brackets, and one more for every other bracket.
-/

namespace JavaScope

open Text.Utf8

namespace Document

variable {d : Document} {start stop : Nat} {nodes : List Node}

/-! ## Brackets in the text of nodes -/

/-- The characters that a node spans. -/
def charsOf (d : Document) (n : Node) : List Char :=
  slice n.start n.stop d.text

theorem bracketCount_textOf (d : Document) (n : Node) :
    bracketCount (d.textOf n) = (d.charsOf n).count '[' := by
  rw [bracketCount, textOf, String.toList_ofList, charsOf]

/-- No bracket opens between two bytes. -/
def IsGap (d : Document) (start stop : Nat) : Prop :=
  start ≤ stop ∧ '[' ∉ slice start stop d.text

instance (d : Document) (start stop : Nat) : Decidable (d.IsGap start stop) :=
  inferInstanceAs (Decidable (_ ∧ _))

/-- The nodes stand one after the other between two bytes, and no bracket opens beside them. -/
def Follow (d : Document) (stop : Nat) : Nat → List Node → Prop
  | start, [] => d.IsGap start stop
  | start, n :: rest => d.IsGap start n.start ∧ n.start ≤ n.stop ∧ IsBoundary n.start d.text ∧
      IsBoundary n.stop d.text ∧ d.Follow stop n.stop rest

instance instDecidableFollow (d : Document) (stop : Nat) :
    ∀ start nodes, Decidable (d.Follow stop start nodes)
  | start, [] => inferInstanceAs (Decidable (d.IsGap start stop))
  | _, n :: rest =>
    have := instDecidableFollow d stop n.stop rest
    inferInstanceAs (Decidable (_ ∧ _ ∧ _ ∧ _ ∧ d.Follow stop n.stop rest))

theorem Follow.le (h : d.Follow stop start nodes) : start ≤ stop := by
  induction nodes generalizing start with
  | nil => exact h.1
  | cons n rest ih =>
    obtain ⟨gap, ordered, -, -, follow⟩ := h
    exact Nat.le_trans gap.1 (Nat.le_trans ordered (ih follow))

/-- The brackets in a part of the text are those of the nodes that stand there. -/
theorem Follow.count_slice (h : d.Follow stop start nodes) (atStart : IsBoundary start d.text)
    (atStop : IsBoundary stop d.text) :
    (slice start stop d.text).count '[' = (nodes.flatMap d.charsOf).count '[' := by
  induction nodes generalizing start with
  | nil => exact List.count_eq_zero.2 h.2
  | cons n rest ih =>
    obtain ⟨gap, ordered, first, last, follow⟩ := h
    have none : (slice start n.start d.text).count '[' = 0 := List.count_eq_zero.2 gap.2
    rw [← slice_append_slice atStart first atStop gap.1 (Nat.le_trans ordered follow.le),
      ← slice_append_slice first last atStop ordered follow.le, List.count_append,
      List.count_append, none, Nat.zero_add, ih follow last, List.flatMap_cons, List.count_append]
    rfl

end Document

namespace Node

/-! ## Dimensions -/

/-- The opening brackets directly below a node. -/
def openings (n : Node) : List Node :=
  n.children.filter (·.kind == .other "[")

/-- What else stands directly below a node: a length, annotations, comments, closing brackets. -/
def fillings (n : Node) : List Node :=
  n.children.filter fun c => !c.kind == .other "["

/-- The dimensions of an array creation that are given with a length. -/
def lengths (n : Node) : List Node :=
  (n.childrenByField .dimensions).filter (·.kind == .other "dimensions_expr")

/-- The dimensions of an array creation that are empty pairs of brackets. -/
def emptyPairs (n : Node) : List Node :=
  ((n.childrenByField .dimensions).filter (·.kind == .other "dimensions")).flatMap openings

end Node

namespace Document

variable {d : Document} {m n : Node}

/-- The node spells a dimension with its length, or some empty ones: its own brackets are tokens, and
no bracket opens beside its parts. -/
structure SpellsDimensions (d : Document) (m : Node) : Prop where
  form : m.kind = .other "dimensions" ∧ m.openings ≠ [] ∨
    m.kind = .other "dimensions_expr" ∧ m.openings.length = 1
  tokens : ∀ bracket ∈ m.openings, d.charsOf bracket = ['[']
  start : IsBoundary m.start d.text
  stop : IsBoundary m.stop d.text
  parts : d.Follow m.stop m.start m.children

instance (d : Document) (m : Node) : Decidable (d.SpellsDimensions m) :=
  decidable_of_iff
    ((m.kind = .other "dimensions" ∧ m.openings ≠ [] ∨
        m.kind = .other "dimensions_expr" ∧ m.openings.length = 1) ∧
      (∀ bracket ∈ m.openings, d.charsOf bracket = ['[']) ∧ IsBoundary m.start d.text ∧
      IsBoundary m.stop d.text ∧ d.Follow m.stop m.start m.children)
    ⟨fun ⟨h₁, h₂, h₃, h₄, h₅⟩ => ⟨h₁, h₂, h₃, h₄, h₅⟩, fun h =>
      ⟨h.form, h.tokens, h.start, h.stop, h.parts⟩⟩

/-- The brackets in the dimensions of an array creation that open none of them. -/
def strayBrackets (d : Document) (n : Node) : Nat :=
  (((n.childrenByField .dimensions).flatMap Node.fillings).flatMap d.charsOf).count '['

/-- No bracket opens inside of a dimension. -/
def HasPlainDimensions (d : Document) (n : Node) : Prop :=
  ∀ m ∈ n.childrenByField .dimensions, ∀ part ∈ m.fillings, '[' ∉ d.charsOf part

instance (d : Document) (n : Node) : Decidable (d.HasPlainDimensions n) :=
  inferInstanceAs (Decidable (∀ m ∈ n.childrenByField .dimensions, ∀ part ∈ m.fillings, _))

theorem strayBrackets_eq_zero : d.strayBrackets n = 0 ↔ d.HasPlainDimensions n := by
  rw [strayBrackets, List.count_eq_zero]
  constructor
  · intro none m hm part hpart opens
    exact none (List.mem_flatMap.2 ⟨part, List.mem_flatMap.2 ⟨m, hm, hpart⟩, opens⟩)
  · intro plain opens
    obtain ⟨part, there, opens⟩ := List.mem_flatMap.1 opens
    obtain ⟨m, hm, hpart⟩ := List.mem_flatMap.1 there
    exact plain m hm part hpart opens

/-- The text of a dimension has its own brackets and those of its other parts. -/
theorem SpellsDimensions.count_charsOf (spelled : d.SpellsDimensions m) :
    (d.charsOf m).count '[' = m.openings.length + (m.fillings.flatMap d.charsOf).count '[' := by
  have own : (m.openings.flatMap d.charsOf).count '[' = m.openings.length := by
    have one : m.openings.map (List.count '[' ∘ d.charsOf) = m.openings.map fun _ => 1 :=
      List.map_congr_left fun bracket hb => by
        rw [Function.comp_apply, spelled.tokens bracket hb]
        rfl
    rw [List.count_flatMap, one, List.map_const', List.sum_replicate_nat, Nat.mul_one]
  have sorted : (m.openings ++ m.fillings).Perm m.children := List.filter_append_perm _ _
  rw [charsOf, spelled.parts.count_slice spelled.start spelled.stop,
    ← (sorted.flatMap_right d.charsOf).count_eq, List.flatMap_append, List.count_append, own]

theorem count_dimensions {nodes : List Node} (spelled : ∀ m ∈ nodes, d.SpellsDimensions m) :
    (nodes.flatMap d.charsOf).count '[' =
      (nodes.filter (·.kind == .other "dimensions_expr")).length +
        ((nodes.filter (·.kind == .other "dimensions")).flatMap Node.openings).length +
        ((nodes.flatMap Node.fillings).flatMap d.charsOf).count '[' := by
  induction nodes with
  | nil => rfl
  | cons m rest ih =>
    have here := spelled m List.mem_cons_self
    have later := ih fun m hm => spelled m (List.mem_cons_of_mem _ hm)
    have counted := here.count_charsOf
    rw [List.flatMap_cons, List.count_append, List.flatMap_cons, List.flatMap_append,
      List.count_append, counted, later]
    rcases here.form with ⟨kind, -⟩ | ⟨kind, single⟩
    · simp [kind]; omega
    · simp [kind, single]; omega

end Document

namespace Scope

open Environment

variable {e e₁ : Environment} {n : Node} {element : Option TypeId}

/-- Counted are the lengths, the empty pairs of brackets, and the brackets that open no dimension. -/
theorem createdDimensions_eq {d : Document}
    (spelled : ∀ m ∈ n.childrenByField .dimensions, d.SpellsDimensions m) :
    createdDimensions d n = n.lengths.length + n.emptyPairs.length + d.strayBrackets n := by
  have summed : createdDimensions d n =
      ((n.childrenByField .dimensions).flatMap d.charsOf).count '[' := by
    rw [createdDimensions, List.count_flatMap, List.sum_eq_foldl, List.foldl_map]
    simp only [Document.bracketCount_textOf, Function.comp_apply]
  rw [summed, Document.count_dimensions spelled]
  rfl

theorem outcome_arrayCreation {typeOf : Typing} (kind : n.kind = .arrayCreationExpression)
    (resolves : outcome (resolveType? (n.childByField .type) n) e = (.ok element, e₁)) :
    outcome (expressionStep typeOf n) e =
      outcome (arrayOf element (createdDimensions e.document n)) e₁ := by
  have grown : e.Grows e₁ := (keeps_resolveType? _ n).ensures e (.refl e) _ _ resolves
  have step : expressionStep typeOf n = (do
      let element ← resolveType? (n.childByField .type) n
      arrayOf element (createdDimensions (← EnvironmentM.read document) n)) := by
    simp only [expressionStep, kind]
  have document : outcome (EnvironmentM.read document) e₁ = (.ok e₁.document, e₁) := rfl
  rw [step, outcome_bind_of_ok resolves, outcome_bind_of_ok document, grown.document]

/-- An array creation is typed as an array over the type of its element, with a dimension for every
length, for every empty pair of brackets, and for every other bracket. -/
theorem outcome_expressionType (kind : n.kind = .arrayCreationExpression)
    (spelled : ∀ m ∈ n.childrenByField .dimensions, e.document.SpellsDimensions m)
    (resolves : outcome (resolveType? (n.childByField .type) n) e = (.ok element, e₁)) :
    outcome (expressionType n) e = outcome (arrayOf element
      ↑(n.lengths.length + n.emptyPairs.length + e.document.strayBrackets n)) e₁ := by
  have document : outcome (EnvironmentM.read document) e = (.ok e.document, e) := rfl
  rw [expressionType, outcome_bind_of_ok document, ← createdDimensions_eq spelled]
  exact outcome_arrayCreation kind resolves

/-- Where a bracket opens inside of a dimension, there is a dimension. -/
theorem exists_dimension {d : Document}
    (spelled : ∀ m ∈ n.childrenByField .dimensions, d.SpellsDimensions m)
    (stray : ¬ d.HasPlainDimensions n) : 0 < n.lengths.length + n.emptyPairs.length := by
  have inside : ∃ m, m ∈ n.childrenByField .dimensions := by
    by_contra none
    exact stray fun m hm => absurd ⟨m, hm⟩ none
  obtain ⟨m, hm⟩ := inside
  rcases (spelled m hm).form with ⟨kind, opens⟩ | ⟨kind, -⟩
  · obtain ⟨bracket, hb⟩ := List.exists_mem_of_ne_nil _ opens
    have : bracket ∈ n.emptyPairs :=
      List.mem_flatMap.2 ⟨m, List.mem_filter.2 ⟨hm, by simp [kind]⟩, hb⟩
    exact Nat.add_pos_right _ (List.length_pos_of_mem this)
  · have : m ∈ n.lengths := List.mem_filter.2 ⟨hm, by simp [kind]⟩
    exact Nat.add_pos_left (List.length_pos_of_mem this) _

/-- An array creation is typed as an array over the type of its element, with a dimension for every
length and for every empty pair of brackets, if no bracket opens inside of a dimension; and only then,
if it is typed at all. -/
theorem expressionType_creates (kind : n.kind = .arrayCreationExpression)
    (spelled : ∀ m ∈ n.childrenByField .dimensions, e.document.SpellsDimensions m)
    (resolves : outcome (resolveType? (n.childByField .type) n) e = (.ok element, e₁)) :
    (e.document.HasPlainDimensions n → outcome (expressionType n) e =
      outcome (arrayOf element ↑(n.lengths.length + n.emptyPairs.length)) e₁) ∧
    ∀ t e', e.DerivesApart → (∀ t ∈ element, 0 ≤ (e₁.store.type t).dimensions) →
      outcome (expressionType n) e = (.ok (some t), e') →
        outcome (arrayOf element ↑(n.lengths.length + n.emptyPairs.length)) e₁ =
          (.ok (some t), e') → e.document.HasPlainDimensions n := by
  have typed := outcome_expressionType kind spelled resolves
  refine ⟨fun plain => ?_, fun t e' apart own run claimed => ?_⟩
  · rw [typed, Document.strayBrackets_eq_zero.2 plain, Nat.add_zero]
  · by_contra stray
    have some_dimension := exists_dimension spelled stray
    have apart₁ : e₁.DerivesApart := (keeps_resolveType? _ n).ensures e apart _ _ resolves
    rw [typed] at run
    cases element with
    | none => cases run
    | some element =>
      have same := dimensions_eq_of_outcome apart₁ (own element rfl) (by omega) (by omega) run claimed
      exact stray (Document.strayBrackets_eq_zero.1 (by omega))

/-! ## Brackets in lengths -/

/-- The length of the created array is an element of another array. -/
def elementAsLength : Context :=
  .ofFile "class A \x7b int[] a; int[] b = new int[a[0]]; \x7d" <|
    .named .program none 0 45 [
      .named .classDeclaration none 0 45 [
        .token "class" 0, .named .identifier (some .name) 6 7 [],
        .named .classBody (some .body) 8 45 [
          .token "\x7b" 8,
          .named .fieldDeclaration none 10 18 [
            .named .arrayType (some .type) 10 15 [
              .named .integralType (some .element) 10 13 [.token "int" 10],
              .named (.other "dimensions") (some .dimensions) 13 15 [
                .token "[" 13, .token "]" 14]],
            .named .variableDeclarator (some .declarator) 16 17 [
              .named .identifier (some .name) 16 17 []],
            .token ";" 17],
          .named .fieldDeclaration none 19 43 [
            .named .arrayType (some .type) 19 24 [
              .named .integralType (some .element) 19 22 [.token "int" 19],
              .named (.other "dimensions") (some .dimensions) 22 24 [
                .token "[" 22, .token "]" 23]],
            .named .variableDeclarator (some .declarator) 25 42 [
              .named .identifier (some .name) 25 26 [],
              .token "=" 27,
              .named .arrayCreationExpression (some .value) 29 42 [
                .token "new" 29,
                .named .integralType (some .type) 33 36 [.token "int" 33],
                .named (.other "dimensions_expr") (some .dimensions) 36 42 [
                  .token "[" 36,
                  .named .arrayAccess none 37 41 [
                    .named .identifier (some .array) 37 38 [],
                    .token "[" 38,
                    .named .decimalIntegerLiteral (some (.other "index")) 39 40 [],
                    .token "]" 40],
                  .token "]" 41]]],
            .token ";" 42],
          .token "\x7d" 44]]]

/-- An array is created with one length and one empty pair of brackets. -/
def numberAsLength : Context :=
  .ofFile "class A \x7b Object a = new int[2][]; \x7d" <|
    .named .program none 0 36 [
      .named .classDeclaration none 0 36 [
        .token "class" 0, .named .identifier (some .name) 6 7 [],
        .named .classBody (some .body) 8 36 [
          .token "\x7b" 8,
          .named .fieldDeclaration none 10 34 [
            .named .typeIdentifier (some .type) 10 16 [],
            .named .variableDeclarator (some .declarator) 17 33 [
              .named .identifier (some .name) 17 18 [],
              .token "=" 19,
              .named .arrayCreationExpression (some .value) 21 33 [
                .token "new" 21,
                .named .integralType (some .type) 25 28 [.token "int" 25],
                .named (.other "dimensions_expr") (some .dimensions) 28 31 [
                  .token "[" 28, .named .decimalIntegerLiteral none 29 30 [], .token "]" 30],
                .named (.other "dimensions") (some .dimensions) 31 33 [
                  .token "[" 31, .token "]" 32]]],
            .token ";" 33],
          .token "\x7d" 35]]]

/-- The array creation of a file. -/
def creationIn (c : Context) : Node :=
  (c.root.preorder.find? fun n => n.kind == .arrayCreationExpression).getD c.root

theorem creationIn_mem (c : Context) : creationIn c ∈ c.root.preorder := by
  rw [creationIn]
  cases found : c.root.preorder.find? _ with
  | none => exact Node.mem_preorder_self _
  | some n => exact List.mem_of_find?_eq_some found

/-- How many dimensions the type in the array creation of a file has, how many the type of the
creation, and how many the array with the dimensions that are written. -/
def creationDimensions (c : Context) : Option (Int × Int × Int) :=
  let n := creationIn c
  match build c with
  | .error _ => none
  | .ok e =>
    match outcome (resolveType? (n.childByField .type) n) e with
    | (.ok (some element), e₁) =>
      match outcome (expressionType n) e,
          outcome (arrayOf (some element) ↑(n.lengths.length + n.emptyPairs.length)) e₁ with
      | (.ok (some t), e'), (.ok (some t'), e'') =>
        some ((e₁.store.type element).dimensions, (e'.store.type t).dimensions,
          (e''.store.type t').dimensions)
      | _, _ => none
    | _ => none

theorem of_creationDimensions {c : Context} {own typed written : Int}
    (h : creationDimensions c = some (own, typed, written)) :
    ∃ e e₁ e' e'' element t t', build c = .ok e ∧
      outcome (resolveType? ((creationIn c).childByField .type) (creationIn c)) e =
        (.ok (some element), e₁) ∧
      outcome (expressionType (creationIn c)) e = (.ok (some t), e') ∧
      outcome (arrayOf (some element)
        ↑((creationIn c).lengths.length + (creationIn c).emptyPairs.length)) e₁ =
          (.ok (some t'), e'') ∧
      (e₁.store.type element).dimensions = own ∧ (e'.store.type t).dimensions = typed ∧
      (e''.store.type t').dimensions = written := by
  unfold creationDimensions at h
  dsimp only at h
  split at h
  · cases h
  · next e built =>
    split at h
    · next element e₁ resolved =>
      split at h
      · next t e' t' e'' run made =>
        cases h
        exact ⟨e, e₁, e', e'', element, t, t', built, resolved, run, made, rfl, rfl, rfl⟩
      · cases h
    · cases h

set_option maxRecDepth 100000 in
theorem creations_computed :
    creationDimensions elementAsLength = some (0, 2, 1) ∧
      creationDimensions numberAsLength = some (0, 2, 2) := by
  decide +kernel

theorem creations_spelled : ∀ c ∈ [elementAsLength, numberAsLength],
    (creationIn c).kind = .arrayCreationExpression ∧
      ∀ m ∈ (creationIn c).childrenByField .dimensions, c.document.SpellsDimensions m := by
  decide

theorem document_of_build {c : Context} {e : Environment} (built : build c = .ok e) :
    e.document = c.document := by
  rw [Environment.document, (build_ready built).sound.context]

/-- The bracket in the length counts as a dimension. -/
theorem elementAsLength_typed_wrongly :
    ¬ ∀ (c : Context) (e e₁ : Environment) (n : Node) (element : Option TypeId),
      build c = .ok e → n ∈ c.root.preorder → n.kind = .arrayCreationExpression →
        (∀ m ∈ n.childrenByField .dimensions, e.document.SpellsDimensions m) →
          outcome (resolveType? (n.childByField .type) n) e = (.ok element, e₁) →
            outcome (expressionType n) e =
              outcome (arrayOf element ↑(n.lengths.length + n.emptyPairs.length)) e₁ := by
  intro claim
  obtain ⟨e, e₁, e', e'', element, t, t', built, resolved, run, made, -, typed, written⟩ :=
    of_creationDimensions creations_computed.1
  obtain ⟨kind, spelled⟩ := creations_spelled elementAsLength (by simp)
  rw [← document_of_build built] at spelled
  have same := claim elementAsLength e e₁ _ _ built (creationIn_mem _) kind spelled resolved
  rw [run, made] at same
  cases same
  cases typed.symm.trans written

theorem expressionType_creates_lengths :
    (∃ e e₁ e' element t, build numberAsLength = .ok e ∧
      (creationIn numberAsLength).kind = .arrayCreationExpression ∧
      (∀ m ∈ (creationIn numberAsLength).childrenByField .dimensions,
        e.document.SpellsDimensions m) ∧
      outcome (resolveType? ((creationIn numberAsLength).childByField .type)
        (creationIn numberAsLength)) e = (.ok element, e₁) ∧
      e.document.HasPlainDimensions (creationIn numberAsLength) ∧
      outcome (expressionType (creationIn numberAsLength)) e = (.ok (some t), e') ∧
      outcome (arrayOf element ↑((creationIn numberAsLength).lengths.length +
        (creationIn numberAsLength).emptyPairs.length)) e₁ = (.ok (some t), e') ∧
      (e'.store.type t).dimensions = 2) ∧
    ∃ e e₁ e' element t, build elementAsLength = .ok e ∧
      outcome (resolveType? ((creationIn elementAsLength).childByField .type)
        (creationIn elementAsLength)) e = (.ok element, e₁) ∧
      outcome (expressionType (creationIn elementAsLength)) e = (.ok (some t), e') ∧
      outcome (arrayOf element ↑((creationIn elementAsLength).lengths.length +
        (creationIn elementAsLength).emptyPairs.length)) e₁ ≠ (.ok (some t), e') := by
  constructor
  · obtain ⟨e, e₁, e', e'', element, t, t', built, resolved, run, made, -, typed, -⟩ :=
      of_creationDimensions creations_computed.2
    obtain ⟨kind, spelled⟩ := creations_spelled numberAsLength (by simp)
    have plain : numberAsLength.document.HasPlainDimensions (creationIn numberAsLength) := by
      decide
    rw [← document_of_build built] at spelled plain
    refine ⟨e, e₁, e', _, t, built, kind, spelled, resolved, plain, run, ?_, typed⟩
    exact ((expressionType_creates kind spelled resolved).1 plain).symm.trans run
  · obtain ⟨e, e₁, e', e'', element, t, t', built, resolved, run, made, own, -, -⟩ :=
      of_creationDimensions creations_computed.1
    obtain ⟨kind, spelled⟩ := creations_spelled elementAsLength (by simp)
    have stray : ¬ elementAsLength.document.HasPlainDimensions (creationIn elementAsLength) := by
      decide
    rw [← document_of_build built] at spelled stray
    refine ⟨e, e₁, e', _, t, built, resolved, run, fun claimed => stray ?_⟩
    refine (expressionType_creates kind spelled resolved).2 t e' (build_derivesApart built) ?_ run
      claimed
    rintro _ ⟨⟩
    exact Int.le_of_eq own.symm

end Scope

end JavaScope
