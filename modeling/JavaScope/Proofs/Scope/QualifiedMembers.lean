import Mathlib.Data.List.Find
import JavaScope.Proofs.Environment.Headers
import JavaScope.Proofs.Request.Collection
import JavaScope.Proofs.Scope.Growth
import JavaScope.Proofs.Scope.Hiding
import JavaScope.Proofs.Scope.Hierarchy

/-!
# The field that a qualified name refers to

A name after an expression refers to the first field of that name that is found breadth first among
the supertypes of the expression's type. What is listed as available at the name comes depth first,
and the first field of each name is kept. Both find a field of the name, or neither does. They find
the same one exactly if the same type comes first, in both orders, among those that declare a field of
the name.
-/

namespace JavaScope

/-! ## Hierarchies of environments that have grown -/

namespace Environment

variable {e₀ e : Environment}

theorem ListsTypes.completeAbove (lists : e.ListsTypes) (d : TypeId) : CompleteAbove e d :=
  fun u _ => none_notMem_supertypesOf (lists u)

namespace GrowsByLeaves

variable (closed : e₀.Closed) (grown : e₀.GrowsByLeaves e)

include closed grown

/-- The declaration of a type that was there before has a place in the store. -/
theorem index_declarationOfType_lt {t : TypeId} (old : t.index < e₀.store.types.size) :
    (e.store.declarationOfType t).index < e.store.types.size := by
  rw [Store.declarationOfType, grown.store.kept t old]
  refine Nat.lt_of_lt_of_le ?_ grown.store.size
  cases generic : (e₀.store.type t).genericType with
  | none => exact old
  | some u => exact closed.store.types t u (by simp [TypeBinding.links, generic])

theorem index_declarationOfType_objectId_le :
    (e.store.declarationOfType e.objectId).index ≤ e.store.types.size := by
  cases known : e₀.recovered.lookup objectName with
  | some t =>
    rw [(withObject_of_known (grown.recovered _ t known)).1]
    have old := closed.recovered _ (mem_of_lookup known)
    exact Nat.le_of_lt (index_declarationOfType_lt closed grown old)
  | none =>
    cases known' : e.recovered.lookup objectName with
    | some t =>
      obtain ⟨-, has, root⟩ := grown.roots objectName t known known'
      rw [(withObject_of_known known').1, Store.declarationOfType, root.generic]
      exact Nat.le_of_lt has
    | none =>
      have none : e.store.type ⟨e.store.types.size⟩ = {} := Store.type_of_size_le (Nat.le_refl _)
      rw [(withObject_of_unknown known').1, Store.declarationOfType, none]
      exact Nat.le_refl _

/-- Only the type above all others may have no place in the store yet. -/
theorem index_le_of_isBelow {t u : TypeId} (h : e.IsBelow t u) : u.index ≤ e.store.types.size := by
  obtain ⟨up, member, rfl⟩ := h
  have object := index_declarationOfType_objectId_le closed grown
  rcases eq_objectId_or_mem_links member with rfl | link
  · exact object
  by_cases old : t.index < e₀.store.types.size
  · rw [grown.store.kept t old] at link
    exact Nat.le_of_lt (index_declarationOfType_lt closed grown (closed.store.types t up link))
  · -- a type that was made on the way has at most the type above all others above it
    have leaf := grown.leaves t (Nat.le_of_not_lt old)
    have only : up = e.objectId := by
      unfold supertypesOf at member
      simp only [leaf.isTypeVariable, leaf.superclass, leaf.interfaces] at member
      split at member
      · next isVariable => cases isVariable
      · split at member
        · simpa using member
        · cases member
    rw [only]
    exact object

end GrowsByLeaves

end Environment

/-! ## The first field of a name -/

namespace Store

/-- The first field of a name among those that a type declares. -/
def fieldNamed (s : Store) (text : String) (t : TypeId) : Option BindingId :=
  ((s.type t).declaredFields.map .variable).find? fun b => s.name b == text

/-- The type declares a field of the name. -/
def declaresField (s : Store) (text : String) (t : TypeId) : Bool :=
  (s.fieldNamed text t).isSome

variable {s : Store} {text : String}

/-- Only fields are variables of a name. -/
theorem find?_membersOf (s : Store) (text : String) (t : TypeId) :
    (membersOf s t).find? (Scope.isVariableNamed text s) = s.fieldNamed text t := by
  have methods : ((s.type t).declaredMethods.map BindingId.method).find?
      (Scope.isVariableNamed text s) = none := by
    simp [List.find?_eq_none, Scope.isVariableNamed, BindingId.kind]
  have types : ((s.type t).declaredTypes.map BindingId.type).find?
      (Scope.isVariableNamed text s) = none := by
    simp [List.find?_eq_none, Scope.isVariableNamed, BindingId.kind]
  rw [membersOf, List.find?_append, List.find?_append, methods, types, Option.or_none,
    Option.or_none, fieldNamed, List.find?_map, List.find?_map]
  rfl

/-- Among variables, the first one of a name is the first one of its signature. -/
theorem find?_firsts (s : Store) (text : String) (vs : List VariableId) :
    (s.firsts (vs.map .variable)).find? (fun b => s.name b == text) =
      (vs.map .variable).find? fun b => s.name b == text := by
  induction vs with
  | nil => rfl
  | cons v rest ih =>
    have signature : s.signature (.variable v) = .ok ("V" ++ s.name (.variable v)) := rfl
    rw [List.map_cons, firsts, signature]
    dsimp only
    rw [List.find?_cons, List.find?_cons]
    cases named : s.name (.variable v) == text with
    | true => rfl
    | false =>
      dsimp only
      rw [List.find?_filter, ← ih]
      -- a later variable of the name is not filtered out, as the first one has another name
      refine List.find?_congr fun d hd => ?_
      obtain ⟨w, -, rfl⟩ := List.mem_map.1 ((s.sublist_firsts _).subset hd)
      by_cases hw : s.name (.variable w) = text
      · have other : ("V" ++ s.name (.variable w)) ≠ "V" ++ s.name (.variable v) := by
          rw [hw, Ne, String.append_right_inj]
          rintro rfl
          simp at named
        have kept : s.signature (.variable w) ≠ .ok ("V" ++ s.name (.variable v)) :=
          fun same => other (Except.ok.inj same)
        simp [hw, kept]
      · simp [hw]

/-- Declaration by declaration, the first member that is a variable of the name is a field of it. -/
theorem find?_flatMap_membersOf (s : Store) (text : String) (found : List TypeId) :
    (found.flatMap (membersOf s)).find? (Scope.isVariableNamed text s) =
      found.findSome? (s.fieldNamed text) := by
  rw [List.find?_flatMap]
  exact congrArg (fun f => found.findSome? f) (funext (find?_membersOf s text))

/-- So is the first binding of the name in a collection of their fields. -/
theorem find?_firsts_flatMap (s : Store) (text : String) (found : List TypeId) :
    (s.firsts ((found.flatMap fun t => (s.type t).declaredFields).map .variable)).find?
      (fun b => s.name b == text) = found.findSome? (s.fieldNamed text) := by
  rw [find?_firsts, List.map_flatMap, List.find?_flatMap]
  rfl

/-- Two declarations do not declare the same field first. -/
theorem findSome?_fieldNamed_eq_iff {found found' : List TypeId}
    (apart : ∀ t u b, s.fieldNamed text t = some b → s.fieldNamed text u = some b → t = u) :
    found.findSome? (s.fieldNamed text) = found'.findSome? (s.fieldNamed text) ↔
      found.find? (s.declaresField text) = found'.find? (s.declaresField text) := by
  have split : ∀ found : List TypeId, found.findSome? (s.fieldNamed text) =
      (found.find? (s.declaresField text)).bind (s.fieldNamed text) := by
    intro found
    induction found with
    | nil => rfl
    | cons t rest ih =>
      rw [List.findSome?_cons, List.find?_cons, declaresField]
      cases first : s.fieldNamed text t with
      | none => exact ih
      | some b => exact first.symm
  rw [split, split]
  constructor
  · intro same
    cases first : found.find? (s.declaresField text) with
    | none =>
      rw [first, Option.bind_none, eq_comm, Option.bind_eq_none_iff] at same
      cases other : found'.find? (s.declaresField text) with
      | none => rfl
      | some u =>
        have declares := List.find?_some other
        rw [declaresField, same u other] at declares
        cases declares
    | some t =>
      have declares := List.find?_some first
      obtain ⟨b, declares⟩ := Option.isSome_iff_exists.1 declares
      rw [first, Option.bind_some, declares, eq_comm, Option.bind_eq_some_iff] at same
      obtain ⟨u, other, declares'⟩ := same
      rw [other, apart t u b declares declares']
  · intro same
    rw [same]

end Store

/-! ## What is listed -/

/-- What a log of variables leaves in a collection. -/
theorem replay_variables {s : Store} {parentType : Option TypeId} {flags : Flags} {log : List Offer}
    {vs : List VariableId} (grown : ∀ o ∈ log, s.Grows o.store)
    (candidates : log.map Offer.candidate = vs.map fun v => some (.variable v))
    {history : List BindingId} {c : Collection}
    (tracks : Collection.Tracks s parentType flags history c) :
    ∃ c', outcome (replay log) c = (.ok false, c') ∧
      Collection.Tracks s parentType flags (history ++ vs.map .variable) c' := by
  induction log generalizing vs history c with
  | nil =>
    obtain rfl : vs = [] := by simpa using candidates.symm
    exact ⟨c, rfl, by simpa using tracks⟩
  | cons o rest ih =>
    cases vs with
    | nil => cases candidates
    | cons v vs =>
      obtain ⟨first, others⟩ := List.cons.inj candidates
      obtain ⟨here, further⟩ := List.forall_mem_cons.1 grown
      have signature : o.store.signature (.variable v) = s.signature (.variable v) := by
        simp only [Store.signature, here.variable_eq]
      have accepted : outcome (Request.accept o.store o.candidate) c =
          outcome (Request.accept s (some (.variable v))) c := by
        rw [first, outcome_accept_collection, outcome_accept_collection, signature]
      obtain ⟨unstopped, tracks'⟩ := tracks.accept (.variable v)
      obtain ⟨c', run, tracks''⟩ := ih further others tracks'
      refine ⟨c', ?_, ?_⟩
      · rw [outcome_replay_cons, accepted]
        rcases taken : outcome (Request.accept s (some (.variable v))) c with ⟨answer, c₁⟩
        rw [taken] at unstopped run
        rw [show answer = .ok false from unstopped]
        exact run
      · rwa [List.append_assoc] at tracks''

theorem NeverStops.outcome_replay {σ : Type} [Request σ] (never : NeverStops σ) (log : List Offer)
    (o : Observed σ) : ∃ r', outcome (replay log) o =
      (.ok false, ⟨r', o.offered ++ log.map Offer.candidate⟩) := by
  induction log generalizing o with
  | nil => exact ⟨o.request, by rw [List.map_nil, List.append_nil]; rfl⟩
  | cons each rest ih =>
    obtain ⟨r₁, accepted⟩ := never each.store each.candidate o.request
    obtain ⟨r₂, others⟩ := ih ⟨r₁, o.offered ++ [each.candidate]⟩
    refine ⟨r₂, ?_⟩
    rw [outcome_replay_cons, outcome_accept_observed, accepted]
    dsimp only
    rw [others, List.map_cons, List.append_assoc]
    rfl

theorem Recorder.neverStops : NeverStops Recorder :=
  fun _ candidate r => ⟨⟨r.offered ++ [candidate]⟩, rfl⟩

namespace Scope

variable {e : Environment} {t : TypeId} {among : Finset TypeId}

/-- What is collected of the variables of a type and its supertypes are the fields that come first with
their name, depth first. -/
theorem outcome_collected_inherited (complete : CompleteAbove e (e.store.declarationOfType t))
    (inside : ∀ u, e.Reaches (e.store.declarationOfType t) u → u ∈ among)
    (few : among.card ≤ e.store.types.size + 2) (around : Option TypeId) :
    ∃ found e', outcome (collected (.new around .onlyVariables)
        (do return (← collectInherited .onlyVariables t []).1)) e =
          (.ok (e.store.firsts ((found.flatMap fun u => (e.store.type u).declaredFields).map .variable)),
            e') ∧
      DepthFirst e.declarationsAbove [] [e.store.declarationOfType t] found := by
  obtain ⟨found, e₁, r₁, recorded, order⟩ :=
    depthFirst_collectInherited Recorder.neverStops complete inside few .onlyVariables .empty
  have may : MayOffer e.Grows fun o => e.store.Grows o.store :=
    ⟨fun _ _ _ grown _ => grown.store, fun _ _ _ grown _ _ _ => grown.store⟩
  obtain ⟨log, last, course⟩ :=
    hasCourse_collectInherited may keeps_supertypes .onlyVariables t [] e (.refl e)
  -- the log is told by the run of a request that never stops
  obtain ⟨r₂, replayed⟩ := Recorder.neverStops.outcome_replay log ⟨.empty, []⟩
  have follows := course.follows (Observed Recorder) ⟨.empty, []⟩
  rw [replayed, List.nil_append] at follows
  dsimp only at follows
  rw [recorded, Prod.mk.injEq, Searching.mk.injEq, Observed.mk.injEq] at follows
  obtain ⟨answer, -, -, candidates⟩ := follows
  have offered : log.map Offer.candidate =
      (found.flatMap fun u => (e.store.type u).declaredFields).map fun v => some (.variable v) := by
    rw [← candidates, List.map_flatMap, List.map_flatMap]
    refine congrArg (fun f => found.flatMap f) (funext fun u => ?_)
    simp [membersAsked, Flags.onlyVariables]
  obtain ⟨c', run, tracks⟩ := replay_variables course.offers offered
    (Collection.tracks_new e.store around .onlyVariables)
  have collects := course.follows Collection (.new around .onlyVariables)
  rw [run, ← answer] at collects
  have searched : outcome (do return (← collectInherited .onlyVariables t []).1)
      (⟨e, .new around .onlyVariables⟩ : Searching Collection) = (.ok false, ⟨last.2, c'⟩) := by
    rw [outcome_bind_of_ok collects]
    rfl
  have unchecked : c'.flags.checkVisibility = false := by
    rw [tracks.asked]
    rfl
  have taken : c'.bindings = e.store.firsts
      ((found.flatMap fun u => (e.store.type u).declaredFields).map .variable) :=
    Except.ok.inj tracks.owes
  refine ⟨found, last.2, ?_, order⟩
  rw [outcome_collected searched, Collection.outcome_requested_of_unchecked unchecked, taken]

/-- The first variable of a name is found breadth first. -/
theorem outcome_findMember_named (complete : CompleteAbove e (e.store.declarationOfType t))
    (inside : ∀ u, e.Reaches (e.store.declarationOfType t) u → u ∈ among)
    (few : among.card ≤ e.store.types.size + 2) (text : String) :
    ∃ found e', outcome (findMember t (isVariableNamed text)) e =
        (.ok (found.findSome? (e.store.fieldNamed text)), e') ∧
      BreadthFirst e.declarationsAbove [] [e.store.declarationOfType t] found := by
  have steady : ∀ s, e.store.Grows s → ∀ b,
      isVariableNamed text s b = isVariableNamed text e.store b := by
    intro s grown b
    cases b with
    | «variable» v => simp only [isVariableNamed, Store.name, grown.variable_eq]
    | type t => rfl
    | method m => rfl
  obtain ⟨found, e', run, order⟩ := breadthFirst_findMember complete inside few steady
  rw [Store.find?_flatMap_membersOf] at run
  exact ⟨found, e', run, order⟩

/-! ## A name after an expression -/

section Qualified

variable {c : Context} {e₀ e₁ : Environment} {n parent : Node}

/-- What a name after an expression of a type refers to, and what is available at it, with the type told
first. -/
theorem outcome_qualified (above : n.parent = some parent) (access : parent.kind = .fieldAccess)
    (free : e.bindingOf n = none)
    (known : outcome (qualifierOf expressionType (some n)) e = (.ok (.type t), e₁)) :
    outcome (resolve expressionType n) e =
        outcome (findMember t (isVariableNamed (e.document.textOf n))) e₁ ∧
      outcome (declarationsInScope (.node (some n)) .onlyVariables) e =
        match e.enclosingType n with
        | none => (.ok [], e)
        | some around => outcome (collected (.new (some around) .onlyVariables)
            (do return (← collectInherited .onlyVariables t []).1)) e₁ := by
  have document : outcome (EnvironmentM.read Environment.document) e = (.ok e.document, e) := rfl
  have label : n.isLabelName = false := by simp [Node.isLabelName, above, access]
  have unlabelled : outcome (labelEnum expressionType n) e = (.ok none, e) := by
    rw [labelEnum, label]
    rfl
  have uncalled : (n.parent.filter fun parent =>
      parent.kind == .methodInvocation && n.isFieldOf parent .name) = none := by
    simp [above, access]
  constructor
  · rw [resolve, outcome_bind_of_ok (outcome_get e), free]
    dsimp only
    rw [outcome_bind_of_ok document, uncalled]
    dsimp only
    rw [outcome_bind_of_ok known]
  · show outcome (declarationsAtName expressionType n .onlyVariables) e = _
    rw [declarationsAtName, outcome_bind_of_ok unlabelled]
    dsimp only
    rw [outcome_bind_of_ok (outcome_get e)]
    cases e.enclosingType n with
    | none => rfl
    | some around =>
      dsimp only
      rw [outcome_bind_of_ok known]

/-- In an environment that has grown from a built one, a field belongs to one type only. -/
theorem eq_of_fieldNamed (sound : e₀.Sound c) (grown : e₀.Grows e) {text : String} {t u : TypeId}
    {b : BindingId} (ht : e.store.fieldNamed text t = some b) (hu : e.store.fieldNamed text u = some b) :
    t = u := by
  have owner : ∀ {t}, e.store.fieldNamed text t = some b →
      ∃ v, b = .variable v ∧ (e₀.store.variable v).declaringClass = some t := by
    intro t named
    obtain ⟨v, listed, rfl⟩ := List.mem_map.1 (List.mem_of_find?_eq_some named)
    rw [(grown.store.declares_eq t).1] at listed
    exact ⟨v, rfl, (sound.fields t v listed).2.owner⟩
  obtain ⟨v, rfl, owned⟩ := owner ht
  obtain ⟨w, same, owned'⟩ := owner hu
  cases same
  exact Option.some.inj (owned.symm.trans owned')

/-- A name after an expression refers to a variable exactly if one of the name is available at it. It is
the first available one of the name exactly if, breadth first and depth first, the same type comes first
among those that declare a field of the name. -/
theorem resolve_eq_listed_iff (built : Environment.build c = .ok e₀)
    (shape : c.document.tree.HasLeafNames) (elements : c.document.tree.HasElements)
    (grown : e₀.GrowsByLeaves e) (above : n.parent = some parent) (access : parent.kind = .fieldAccess)
    (free : e.bindingOf n = none)
    (known : outcome (qualifierOf expressionType (some n)) e = (.ok (.type t), e₁)) :
    let declares := e₁.store.declaresField (e.document.textOf n)
    let start := e₁.store.declarationOfType t
    ∃ found ds e' e'' wide deep,
      outcome (resolve expressionType n) e = (.ok found, e') ∧
        outcome (declarationsInScope (.node (some n)) .onlyVariables) e = (.ok ds, e'') ∧
        BreadthFirst e₁.declarationsAbove [] [start] wide ∧
        DepthFirst e₁.declarationsAbove [] [start] deep ∧
        if e.enclosingType n = none then ds = []
        else
          let listed := ds.find? fun b => e₁.store.name b == e.document.textOf n
          (found = none ↔ listed = none) ∧
            (found = listed ↔ wide.find? declares = deep.find? declares) := by
  intro declares start
  have ready := Environment.build_ready built
  have grown₁ : e₀.GrowsByLeaves e₁ := by
    have kept := keeps_qualifierOf keeps_expressionType (some n) e grown
    rw [known] at kept
    exact kept
  have complete : CompleteAbove e₁ start :=
    (grown₁.listsTypes (Environment.build_listsTypes built shape elements)).completeAbove start
  -- everything that is reached has a place in the store, or is the start or the type above all others
  have inside : ∀ u, e₁.Reaches start u → u ∈ insert start (typesUpTo e₁.store.types.size) := by
    intro u way
    cases way with
    | refl => exact Finset.mem_insert_self _ _
    | tail _ last =>
      refine Finset.mem_insert_of_mem (mem_typesUpTo.2 ?_)
      exact grown₁.index_le_of_isBelow ready.sound.closed last
  have few : (insert start (typesUpTo e₁.store.types.size)).card ≤ e₁.store.types.size + 2 :=
    (Finset.card_insert_le _ _).trans (Nat.succ_le_succ (card_typesUpTo_le _))
  obtain ⟨resolved, listed⟩ := outcome_qualified above access free known
  obtain ⟨wide, e', found, breadthFirst⟩ :=
    outcome_findMember_named complete inside few (e.document.textOf n)
  obtain ⟨deep, e'', ds, depthFirst⟩ := outcome_collected_inherited complete inside few (e.enclosingType n)
  rw [found] at resolved
  cases around : e.enclosingType n with
  | none =>
    rw [around] at listed
    exact ⟨_, _, e', e, wide, deep, resolved, listed, breadthFirst, depthFirst, rfl⟩
  | some t' =>
    rw [around] at listed ds
    dsimp only at listed
    rw [ds] at listed
    refine ⟨_, _, e', e'', wide, deep, resolved, listed, breadthFirst, depthFirst, ?_⟩
    rw [if_neg (Option.some_ne_none t'), Store.find?_firsts_flatMap]
    have same : ∀ u, u ∈ wide ↔ u ∈ deep := fun u =>
      (breadthFirst.explored.mem_iff u).trans (depthFirst.explored.mem_iff u).symm
    constructor
    · simp only [List.findSome?_eq_none_iff, same]
    · exact Store.findSome?_fieldNamed_eq_iff fun t u b =>
        eq_of_fieldNamed ready.sound grown₁.toGrows

end Qualified

/-! ## A field deeper and a field nearer -/

/-- A class with a field x, a class that extends it, and a class that extends that one and implements
an interface with a field x too. The last class uses its x. -/
def fieldsApart : Context :=
  .ofFile ("class A \x7b private int x; \x7d class B extends A \x7b \x7d interface I \x7b int x = 1; \x7d " ++
      "class C extends B implements I \x7b int y = this.x; \x7d") <|
    .named .program none 0 126 [
      .named .classDeclaration none 0 26 [
        .token "class" 0, .named .identifier (some .name) 6 7 [],
        .named .classBody (some .body) 8 26 [
          .token "\x7b" 8,
          .named .fieldDeclaration none 10 24 [
            .named .modifiers none 10 17 [.token "private" 10],
            .named .integralType (some .type) 18 21 [.token "int" 18],
            .named .variableDeclarator (some .declarator) 22 23 [
              .named .identifier (some .name) 22 23 []],
            .token ";" 23],
          .token "\x7d" 25]],
      .named .classDeclaration none 27 48 [
        .token "class" 27, .named .identifier (some .name) 33 34 [],
        .named .superclass (some (.other "superclass")) 35 44 [
          .token "extends" 35, .named .typeIdentifier none 43 44 []],
        .named .classBody (some .body) 45 48 [.token "\x7b" 45, .token "\x7d" 47]],
      .named .interfaceDeclaration none 49 75 [
        .token "interface" 49, .named .identifier (some .name) 59 60 [],
        .named .interfaceBody (some .body) 61 75 [
          .token "\x7b" 61,
          .named .constantDeclaration none 63 73 [
            .named .integralType (some .type) 63 66 [.token "int" 63],
            .named .variableDeclarator (some .declarator) 67 72 [
              .named .identifier (some .name) 67 68 [], .token "=" 69,
              .named .decimalIntegerLiteral (some .value) 71 72 []],
            .token ";" 72],
          .token "\x7d" 74]],
      .named .classDeclaration none 76 126 [
        .token "class" 76, .named .identifier (some .name) 82 83 [],
        .named .superclass (some (.other "superclass")) 84 93 [
          .token "extends" 84, .named .typeIdentifier none 92 93 []],
        .named .superInterfaces (some (.other "interfaces")) 94 106 [
          .token "implements" 94,
          .named .typeList none 105 106 [.named .typeIdentifier none 105 106 []]],
        .named .classBody (some .body) 107 126 [
          .token "\x7b" 107,
          .named .fieldDeclaration none 109 124 [
            .named .integralType (some .type) 109 112 [.token "int" 109],
            .named .variableDeclarator (some .declarator) 113 123 [
              .named .identifier (some .name) 113 114 [], .token "=" 115,
              .named .fieldAccess (some .value) 117 123 [
                .named .thisRef (some .object) 117 121 [], .token "." 121,
                .named .identifier (some .field) 122 123 []]],
            .token ";" 123],
          .token "\x7d" 125]]]

/-- The name of the field that is used. -/
def fieldUsed : Node :=
  ((firstNode fieldsApart .fieldAccess).childByField .field).getD fieldsApart.root

set_option maxRecDepth 100000 in
theorem fieldsApart_computed :
    (match Environment.build fieldsApart with
    | .error _ => none
    | .ok e =>
      match outcome (qualifierOf expressionType (some fieldUsed)) e,
          outcome (resolve expressionType fieldUsed) e,
          outcome (declarationsInScope (.node (some fieldUsed)) .onlyVariables) e with
      | (.ok (.type t), e₁), (.ok found, _), (.ok ds, _) =>
        some (t, fieldUsed.parent.map Node.kind, e.bindingOf fieldUsed, found,
          ds.find? fun b => e₁.store.name b == e.document.textOf fieldUsed)
      | _, _, _ => none) =
        some (⟨3⟩, some .fieldAccess, none, some (.variable ⟨1⟩), some (.variable ⟨0⟩)) := by
  decide +kernel

/-- What is known of the name in this file. -/
theorem fieldsApart_resolved :
    ∃ e e₁ parent found ds e' e'', Environment.build fieldsApart = .ok e ∧
      fieldUsed.parent = some parent ∧ parent.kind = .fieldAccess ∧
      e.bindingOf fieldUsed = none ∧
      outcome (qualifierOf expressionType (some fieldUsed)) e = (.ok (.type ⟨3⟩), e₁) ∧
      outcome (resolve expressionType fieldUsed) e = (.ok found, e') ∧
      outcome (declarationsInScope (.node (some fieldUsed)) .onlyVariables) e = (.ok ds, e'') ∧
      found ≠ ds.find? fun b => e₁.store.name b == e.document.textOf fieldUsed := by
  have computed := fieldsApart_computed
  split at computed
  · cases computed
  · next e built =>
    split at computed
    · next t e₁ found e' ds e'' known resolved listed =>
      simp only [Option.some.injEq, Prod.mk.injEq] at computed
      obtain ⟨rfl, above, free, rfl, first⟩ := computed
      obtain ⟨parent, above, access⟩ := Option.map_eq_some_iff.1 above
      refine ⟨e, e₁, parent, _, ds, e', e'', built, above, access, free, known, resolved, listed, ?_⟩
      rw [first]
      decide
    · cases computed

theorem resolve_eq_listed_iff_fieldsApart :
    ∃ e e₁ parent, Environment.build fieldsApart = .ok e ∧
      fieldsApart.document.tree.HasLeafNames ∧ fieldsApart.document.tree.HasElements ∧
      e.GrowsByLeaves e ∧ fieldUsed.parent = some parent ∧ parent.kind = .fieldAccess ∧
      e.bindingOf fieldUsed = none ∧
      outcome (qualifierOf expressionType (some fieldUsed)) e = (.ok (.type ⟨3⟩), e₁) ∧
      let declares := e₁.store.declaresField (e.document.textOf fieldUsed)
      let start := e₁.store.declarationOfType ⟨3⟩
      ∃ found ds e' e'' wide deep,
        outcome (resolve expressionType fieldUsed) e = (.ok found, e') ∧
          outcome (declarationsInScope (.node (some fieldUsed)) .onlyVariables) e = (.ok ds, e'') ∧
          BreadthFirst e₁.declarationsAbove [] [start] wide ∧
          DepthFirst e₁.declarationsAbove [] [start] deep ∧
          if e.enclosingType fieldUsed = none then ds = []
          else
            let listed := ds.find? fun b => e₁.store.name b == e.document.textOf fieldUsed
            (found = none ↔ listed = none) ∧
              (found = listed ↔ wide.find? declares = deep.find? declares) := by
  obtain ⟨e, e₁, parent, -, -, -, -, built, above, access, free, known, -⟩ := fieldsApart_resolved
  have shape : fieldsApart.document.tree.HasLeafNames := by decide
  have elements : fieldsApart.document.tree.HasElements := by decide
  exact ⟨e, e₁, parent, built, shape, elements, .refl e, above, access, free, known,
    resolve_eq_listed_iff built shape elements (.refl e) above access free known⟩

/-- The name refers to the field of the interface, and the field of the class above is listed. -/
theorem fieldsApart_listed_elsewhere :
    ¬ ∀ (c : Context) (e e₁ e' e'' : Environment) (n parent : Node) (t : TypeId)
        (found : Option BindingId) (ds : List BindingId), Environment.build c = .ok e →
      n.parent = some parent → parent.kind = .fieldAccess → e.bindingOf n = none →
      outcome (qualifierOf expressionType (some n)) e = (.ok (.type t), e₁) →
      outcome (resolve expressionType n) e = (.ok found, e') →
      outcome (declarationsInScope (.node (some n)) .onlyVariables) e = (.ok ds, e'') →
      found = ds.find? fun b => e₁.store.name b == e.document.textOf n := by
  intro claim
  obtain ⟨e, e₁, parent, found, ds, e', e'', built, above, access, free, known, resolved, listed,
    apart⟩ := fieldsApart_resolved
  exact apart (claim fieldsApart e e₁ e' e'' fieldUsed parent ⟨3⟩ found ds built above access free known
    resolved listed)

end Scope

end JavaScope
