import JavaScope.Environment.Complete
import JavaScope.Proofs.Action
import JavaScope.Proofs.Tree

/-!
# Types by dotted names

A dotted name is split into its segments, the first one is looked up outwards from the place of the
name, and every further one among the member types of the type before. Before all that the unit is
searched for a type that has the dotted name as its qualified name. Both searches are told here by
what they choose: the first type of a name among those of a list.
-/

namespace JavaScope

/-! ## Segments -/

theorem dottedSegments_cons {c : Char} {text segment : List Char} {segments : List (List Char)}
    (plain : c ≠ '.') (rest : dottedSegments text = segment :: segments) :
    dottedSegments (c :: text) = (c :: segment) :: segments := by
  have other : (c == '.') = false := by simpa using plain
  simp [dottedSegments, other, rest]

theorem dottedSegments_append {segment text : List Char} {first : List Char}
    {segments : List (List Char)} (plain : '.' ∉ segment)
    (rest : dottedSegments text = first :: segments) :
    dottedSegments (segment ++ text) = (segment ++ first) :: segments := by
  induction segment with
  | nil => exact rest
  | cons c segment ih =>
    rw [List.mem_cons, not_or] at plain
    exact dottedSegments_cons (Ne.symm plain.1) (ih plain.2)

/-- Names without a dot are the segments of the dotted name that is made of them. -/
theorem dottedSegments_intercalate {segments : List (List Char)} (nonempty : segments ≠ [])
    (plain : ∀ segment ∈ segments, '.' ∉ segment) :
    dottedSegments (['.'].intercalate segments) = segments := by
  induction segments with
  | nil => exact absurd rfl nonempty
  | cons segment segments ih =>
    obtain ⟨here, further⟩ := List.forall_mem_cons.1 plain
    cases segments with
    | nil =>
      have alone : ['.'].intercalate [segment] = segment ++ [] := by simp [List.intercalate]
      rw [alone, dottedSegments_append here rfl, List.append_nil]
    | cons next segments =>
      have cut : ['.'].intercalate (segment :: next :: segments) =
          segment ++ ('.' :: ['.'].intercalate (next :: segments)) := by
        simp [List.intercalate]
      have rest : dottedSegments ('.' :: ['.'].intercalate (next :: segments)) =
          [] :: next :: segments := by
        simp [dottedSegments, ih (List.cons_ne_nil _ _) further]
      rw [cut, dottedSegments_append here rest, List.append_nil]

theorem segments_intercalate {names : List String} (nonempty : names ≠ [])
    (plain : ∀ name ∈ names, '.' ∉ name.toList) :
    (dottedSegments (".".intercalate names).toList).map String.ofList = names := by
  rw [String.toList_intercalate]
  show (dottedSegments (['.'].intercalate _)).map _ = _
  rw [dottedSegments_intercalate (by simpa using nonempty) (by simpa using plain), List.map_map]
  simp [Function.comp_def]

namespace Environment

open EnvironmentM

variable {e e' : Environment} {t u : TypeId}

/-! ## The types that the searches choose -/

/-- The first type of a name in a list of types. -/
def IsFirstOf (e : Environment) (types : List TypeId) (name : String) (t : TypeId) : Prop :=
  ∃ before after, types = before ++ t :: after ∧ (e.store.type t).name = name ∧
    ∀ other ∈ before, (e.store.type other).name ≠ name

theorem typeNamed_eq_some_iff {types : List TypeId} {name : String} :
    e.typeNamed name types = some t ↔ e.IsFirstOf types name t := by
  rw [typeNamed, List.find?_eq_some_iff_append]
  simp only [beq_iff_eq, Bool.not_eq_true', beq_eq_false_iff_ne, IsFirstOf]
  constructor
  · rintro ⟨named, before, after, cut, earlier⟩
    exact ⟨before, after, cut, named, earlier⟩
  · rintro ⟨before, after, cut, named, earlier⟩
    exact ⟨named, before, after, cut, earlier⟩

/-- Along the names, each type is the first of its name among the member types of the one before. -/
inductive LeadsAlong (e : Environment) : TypeId → List String → TypeId → Prop
  | here (t : TypeId) : e.LeadsAlong t [] t
  | member {t member u : TypeId} {name : String} {path : List String}
      (first : e.IsFirstOf (e.store.type t).declaredTypes name member)
      (further : e.LeadsAlong member path u) : e.LeadsAlong t (name :: path) u

theorem memberAlong_eq_some_iff {path : List String} :
    e.memberAlong t path = some u ↔ e.LeadsAlong t path u := by
  induction path generalizing t with
  | nil =>
    rw [memberAlong, Option.some.injEq]
    constructor
    · rintro rfl
      exact .here t
    · rintro ⟨⟩
      rfl
  | cons name path ih =>
    rw [memberAlong]
    show (e.typeNamed name _).bind _ = _ ↔ _
    rw [Option.bind_eq_some_iff]
    constructor
    · rintro ⟨member, first, further⟩
      exact .member (typeNamed_eq_some_iff.1 first) (ih.1 further)
    · rintro ⟨⟩
      next member first further =>
        exact ⟨member, typeNamed_eq_some_iff.2 first, ih.2 further⟩

/-- A declared binding is a type that a qualified name reaches from everywhere in the unit. -/
def IsQualified (e : Environment) (qualifiedName : String) (b : BindingId) : Prop :=
  ∃ t, b = .type t ∧ (e.store.type t).qualifiedName = qualifiedName ∧
    (e.store.type t).isLocal = false ∧ (e.store.type t).isTypeVariable = false

/-- The first declared type of the unit that a qualified name reaches. -/
def IsFirstQualified (e : Environment) (qualifiedName : String) (t : TypeId) : Prop :=
  ∃ before after, e.bindings = before ++ .type t :: after ∧
    e.IsQualified qualifiedName (.type t) ∧ ∀ b ∈ before, ¬ e.IsQualified qualifiedName b

/-- The test that `findType` makes of one binding. -/
theorem qualified_eq_some_iff {qualifiedName : String} {b : BindingId} :
    (do
      let t ← b.typeId?
      let type := e.store.type t
      if type.qualifiedName == qualifiedName && !type.isLocal && !type.isTypeVariable then some t
      else none) = some t ↔ b = .type t ∧ e.IsQualified qualifiedName b := by
  cases b with
  | type s =>
    show (if _ then some s else none) = some t ↔ _
    simp only [Option.ite_none_right_eq_some, Bool.and_eq_true, beq_iff_eq, Bool.not_eq_true',
      Option.some.injEq, BindingId.type.injEq]
    constructor
    · rintro ⟨⟨⟨name, outer⟩, plain⟩, rfl⟩
      exact ⟨rfl, s, rfl, name, outer, plain⟩
    · rintro ⟨rfl, s, ⟨⟩, name, outer, plain⟩
      exact ⟨⟨⟨name, outer⟩, plain⟩, rfl⟩
  | «variable» v =>
    show none = some t ↔ _
    simp
  | method m =>
    show none = some t ↔ _
    simp

theorem findType_eq_some_iff {qualifiedName : String} :
    e.findType qualifiedName = some t ↔ e.IsFirstQualified qualifiedName t := by
  rw [findType, List.findSome?_eq_some_iff]
  constructor
  · rintro ⟨before, b, after, cut, found, earlier⟩
    obtain ⟨rfl, qualified⟩ := qualified_eq_some_iff.1 found
    refine ⟨before, after, cut, qualified, fun b member qualified => ?_⟩
    obtain ⟨s, rfl, -⟩ := id qualified
    have taken := qualified_eq_some_iff.2 ⟨rfl, qualified⟩
    exact Option.some_ne_none _ (taken.symm.trans (earlier _ member))
  · rintro ⟨before, after, cut, qualified, earlier⟩
    refine ⟨before, .type t, after, cut, qualified_eq_some_iff.2 ⟨rfl, qualified⟩, ?_⟩
    intro b member
    rw [Option.eq_none_iff_forall_ne_some]
    intro s found
    exact earlier b member (qualified_eq_some_iff.1 found).2

/-! ## Resolving -/

/-- A dotted name that no type of the unit has as its qualified name is resolved segment by
segment. -/
theorem outcome_resolveQualifiedType_of_none {place : Node} {first : String} {path : List String}
    (plain : ∀ name ∈ first :: path, '.' ∉ name.toList)
    (free : e.findType (".".intercalate (first :: path)) = none)
    (lexical : outcome (resolveTypeName first place) e = (.ok t, e'))
    (declared : (e'.store.type t).recovered = false) (leads : e'.LeadsAlong t path u) :
    outcome (resolveQualifiedType (".".intercalate (first :: path)) place) e = (.ok u, e') := by
  have segments := segments_intercalate (List.cons_ne_nil first path) plain
  rw [resolveTypeName] at lexical
  rw [resolveQualifiedType, resolveQualifiedTypeIn, outcome_bind_of_ok (outcome_get e), free]
  simp only [segments, List.headD_cons, List.tail_cons]
  rw [outcome_bind_of_ok lexical, outcome_bind_of_ok (outcome_get e'), declared,
    memberAlong_eq_some_iff.2 leads]
  rfl

theorem outcome_resolveQualifiedType_of_some {place : Node} {dotted : String}
    (found : e.findType dotted = some u) :
    outcome (resolveQualifiedType dotted place) e = (.ok u, e) := by
  rw [resolveQualifiedType, resolveQualifiedTypeIn, outcome_bind_of_ok (outcome_get e), found]
  rfl

/-- A dotted name whose first segment stands for a declared type at its place, from which the other
segments lead to a member type, stands for that member type, unless the first declared type of the
unit that has the whole name as its qualified name is another one: then it stands for that. -/
theorem resolveQualifiedType_leadsAlong {place : Node} {first : String} {path : List String}
    (plain : ∀ name ∈ first :: path, '.' ∉ name.toList)
    (lexical : outcome (resolveTypeName first place) e = (.ok t, e'))
    (declared : (e'.store.type t).recovered = false) (leads : e'.LeadsAlong t path u) :
    ∃ answer e₁,
      outcome (resolveQualifiedType (".".intercalate (first :: path)) place) e =
        (.ok answer, e₁) ∧
      (∀ other, e.IsFirstQualified (".".intercalate (first :: path)) other → answer = other) ∧
      (answer = u ↔
        ∀ other, e.IsFirstQualified (".".intercalate (first :: path)) other → other = u) := by
  cases found : e.findType (".".intercalate (first :: path)) with
  | none =>
    have free (other) : ¬ e.IsFirstQualified (".".intercalate (first :: path)) other := by
      rw [← findType_eq_some_iff, found]
      exact Option.some_ne_none other ∘ Eq.symm
    exact ⟨u, e', outcome_resolveQualifiedType_of_none plain found lexical declared leads,
      fun other h => absurd h (free other),
      iff_of_true rfl fun other h => absurd h (free other)⟩
  | some chosen =>
    have only (other) : e.IsFirstQualified (".".intercalate (first :: path)) other ↔
        chosen = other := by
      rw [← findType_eq_some_iff, found, Option.some.injEq]
    refine ⟨chosen, e, outcome_resolveQualifiedType_of_some found, fun other h => (only other).1 h,
      ?_, fun all => all chosen ((only chosen).2 rfl)⟩
    rintro rfl other h
    exact ((only other).1 h).symm

/-! ## A name that is also a qualified name -/

/-- A file whose class A uses B.C for a member type of its own class B, below which stands another
class B with a member C. -/
def nestedNamesake : Context :=
  .ofFile "class A \x7b class B \x7b class C \x7b \x7d \x7d B.C f; \x7d class B \x7b class C \x7b \x7d \x7d" <|
    .named .program none 0 66 [
      .named .classDeclaration none 0 42 [
        .token "class" 0, .named .identifier (some .name) 6 7 [],
        .named .classBody (some .body) 8 42 [
          .token "\x7b" 8,
          .named .classDeclaration none 10 33 [
            .token "class" 10, .named .identifier (some .name) 16 17 [],
            .named .classBody (some .body) 18 33 [
              .token "\x7b" 18,
              .named .classDeclaration none 20 31 [
                .token "class" 20, .named .identifier (some .name) 26 27 [],
                .named .classBody (some .body) 28 31 [.token "\x7b" 28, .token "\x7d" 30]],
              .token "\x7d" 32]],
          .named .fieldDeclaration none 34 40 [
            .named .scopedTypeIdentifier (some .type) 34 37 [
              .named .typeIdentifier none 34 35 [], .token "." 35,
              .named .typeIdentifier none 36 37 []],
            .named .variableDeclarator (some .declarator) 38 39 [
              .named .identifier (some .name) 38 39 []],
            .token ";" 39],
          .token "\x7d" 41]],
      .named .classDeclaration none 43 66 [
        .token "class" 43, .named .identifier (some .name) 49 50 [],
        .named .classBody (some .body) 51 66 [
          .token "\x7b" 51,
          .named .classDeclaration none 53 64 [
            .token "class" 53, .named .identifier (some .name) 59 60 [],
            .named .classBody (some .body) 61 64 [.token "\x7b" 61, .token "\x7d" 63]],
          .token "\x7d" 65]]]

set_option maxRecDepth 100000 in
theorem nestedNamesake_computed :
    (match build nestedNamesake,
        nestedNamesake.root.preorder.find? (·.kind == .scopedTypeIdentifier) with
    | .ok e, some place =>
      match outcome (resolveTypeName "B" place) e with
      | (.ok t, e') =>
        match e'.memberAlong t ["C"], e.findType "B.C" with
        | some u, some other => !(e'.store.type t).recovered && other != u
        | _, _ => false
      | _ => false
    | _, _ => false) = true := by
  decide +kernel

theorem nestedNamesake_resolved :
    ∃ e place t e' u other, build nestedNamesake = .ok e ∧
      place ∈ nestedNamesake.root.preorder ∧
      outcome (resolveTypeName "B" place) e = (.ok t, e') ∧
      (e'.store.type t).recovered = false ∧ e'.LeadsAlong t ["C"] u ∧
      e.IsFirstQualified "B.C" other ∧ other ≠ u := by
  have computed := nestedNamesake_computed
  split at computed
  · next e place built found =>
    split at computed
    · next t e' lexical =>
      split at computed
      · next u other leads first =>
        simp only [Bool.and_eq_true, Bool.not_eq_true', bne_iff_ne] at computed
        exact ⟨e, place, t, e', u, other, built, List.mem_of_find?_eq_some found, lexical,
          computed.1, memberAlong_eq_some_iff.1 leads, findType_eq_some_iff.1 first, computed.2⟩
      · cases computed
    · cases computed
  · cases computed

theorem resolveQualifiedType_leadsAlong_nestedNamesake :
    ∃ e place t e' u other, build nestedNamesake = .ok e ∧
      place ∈ nestedNamesake.root.preorder ∧
      outcome (resolveTypeName "B" place) e = (.ok t, e') ∧
      (e'.store.type t).recovered = false ∧ e'.LeadsAlong t ["C"] u ∧
      e.IsFirstQualified "B.C" other ∧ other ≠ u ∧
      ∃ answer e₁, outcome (resolveQualifiedType (".".intercalate ["B", "C"]) place) e =
          (.ok answer, e₁) ∧
        (∀ other, e.IsFirstQualified (".".intercalate ["B", "C"]) other → answer = other) ∧
        (answer = u ↔
          ∀ other, e.IsFirstQualified (".".intercalate ["B", "C"]) other → other = u) := by
  obtain ⟨e, place, t, e', u, other, built, below, lexical, declared, leads, first, apart⟩ :=
    nestedNamesake_resolved
  exact ⟨e, place, t, e', u, other, built, below, lexical, declared, leads, first, apart,
    resolveQualifiedType_leadsAlong (by decide) lexical declared leads⟩

/-- The class B that is in scope does not decide what B.C stands for. -/
theorem nestedNamesake_resolves_elsewhere :
    ¬ ∀ (c : Context) (e e' : Environment) (place : Node) (t u : TypeId) (first : String)
        (path : List String), build c = .ok e → place ∈ c.root.preorder →
      (∀ name ∈ first :: path, '.' ∉ name.toList) →
      outcome (resolveTypeName first place) e = (.ok t, e') →
      (e'.store.type t).recovered = false → e'.LeadsAlong t path u →
      (outcome (resolveQualifiedType (".".intercalate (first :: path)) place) e).1 = .ok u := by
  intro claim
  obtain ⟨e, place, t, e', u, other, built, below, lexical, declared, leads, first, apart⟩ :=
    nestedNamesake_resolved
  have answer := claim _ e e' place t u "B" ["C"] built below (by decide) lexical declared leads
  have dotted : ".".intercalate ["B", "C"] = "B.C" := by decide
  rw [dotted, outcome_resolveQualifiedType_of_some (findType_eq_some_iff.2 first)] at answer
  exact apart (Except.ok.inj answer)

end Environment

end JavaScope
