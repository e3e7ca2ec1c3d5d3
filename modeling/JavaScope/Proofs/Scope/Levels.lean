import JavaScope.Proofs.Grammar
import JavaScope.Proofs.Scope.Walk

/-!
# Levels of a walk and classes of searches

What holds of a walk is told level by level, from what holds of the walks below. A class of searches
that may follow each other holds of a level as soon as it holds of its parts. On a path through the
tree one part has more to tell than the parts beside it, and the level hands it on.
-/

namespace JavaScope

namespace Node

/-- The only list of resources is the last one. -/
theorem Fits.getLast?_resources {n list : Node} (fits : n.Fits) (below : list ∈ n.namedChildren)
    (kind : list.kind = .resourceSpecification) :
    (n.namedChildren.filter (·.kind == .resourceSpecification)).getLast? = some list := by
  have found : list ∈ n.namedChildren.filter (·.kind == .resourceSpecification) :=
    List.mem_filter.2 ⟨below, by simp [kind]⟩
  have listed : (n.namedChildren.filter (·.kind == .resourceSpecification)).Sublist
      (n.childrenOfKinds [.resourceSpecification]) := by
    simp only [childrenOfKinds, List.contains_cons, List.contains_nil, Bool.or_false]
    exact List.filter_sublist.filter _
  rw [eq_singleton (Nat.le_trans listed.length_le fits.resources) found]
  rfl

end Node

namespace ScopePoint

/-- The walk is asked for what a node of this kind declares. -/
def asksFor (p : ScopePoint) (kind : Kind) : Bool :=
  p.flags.vars && kind.isCodeVariable || p.flags.types && kind.declaresType

/-- What has ended does not hold the position. -/
theorem isInside_of_endsBefore {p : ScopePoint} {n : Node} (h : p.endsBefore n = true) :
    p.isInside n = false := by
  have ends : (p.unit.charRange n).2 < p.position := by simpa [endsBefore] using h
  have outside : ¬ p.position < (p.unit.charRange n).2 := by omega
  simp [isInside, outside]

end ScopePoint

namespace LocalWalk

/-! ## Classes of searches -/

section Classes

variable {σ : Type}

/-- Searches of the class may follow each other, and need not be made. -/
structure Composes (Z : SearchM σ Bool → Prop) : Prop where
  pure : Z (pure false)
  orElse : ∀ {a b}, Z a → Z b → Z (do
    if ← a then return true
    b)

/-- A search of the class `K` may come before or after one of the class `Z`. -/
structure Carries (Z K : SearchM σ Bool → Prop) : Prop extends Composes Z where
  left : ∀ {a b}, K a → Z b → K (do
    if ← a then return true
    b)
  right : ∀ {a b}, Z a → K b → K (do
    if ← a then return true
    b)

variable {Z K : SearchM σ Bool → Prop} {α : Type} {xs : List α} {each : α → SearchM σ Bool}

/-- A search is a family of one. -/
theorem Composes.together (composes : Composes Z) :
    ComposesTogether fun a : Unit → SearchM σ Bool => Z (a ()) where
  pure := composes.pure
  orElse := composes.orElse

theorem Composes.anyM (composes : Composes Z) (h : ∀ x ∈ xs, Z (each x)) : Z (xs.anyM each) :=
  composes.together.anyM (f := fun x _ => each x) h

theorem Composes.guarded (composes : Composes Z) {condition : Bool} {a : SearchM σ Bool}
    (h : condition = true → Z a) : Z (if condition then a else return false) :=
  composes.together.guarded (a := fun _ => a) h

/-- Either of two searches, by a condition. -/
theorem ite_of {P : SearchM σ Bool → Prop} {c : Prop} [Decidable c] {a b : SearchM σ Bool}
    (h : c → P a) (h' : ¬c → P b) : P (if c then a else b) := by
  split
  · next hc => exact h hc
  · next hc => exact h' hc

/-- Of the elements of a list, one has more to tell. -/
theorem Carries.anyM (carries : Carries Z K) (nodup : xs.Nodup) {x : α} (member : x ∈ xs)
    (h : K (each x)) (others : ∀ y ∈ xs, y ≠ x → Z (each y)) : K (xs.anyM each) := by
  induction xs with
  | nil => cases member
  | cons y xs ih =>
    rw [List.anyM_cons]
    obtain ⟨fresh, nodup⟩ := List.nodup_cons.1 nodup
    by_cases same : y = x
    -- the element comes once, so the rest of the list is beside it
    · subst same
      apply carries.left h
      apply carries.toComposes.anyM
      intro z hz
      apply others z (List.mem_cons_of_mem y hz)
      intro same
      exact fresh (same ▸ hz)
    · have rest : x ∈ xs := (List.mem_cons.1 member).resolve_left (Ne.symm same)
      have first := others y List.mem_cons_self same
      exact carries.right first (ih nodup rest fun z hz => others z (List.mem_cons_of_mem y hz))

/-- A search that is made only on a condition, without which `Z` is enough. -/
theorem Carries.guarded (carries : Carries Z K) {condition : Bool} {a : SearchM σ Bool}
    (h : condition = true → K a) (enough : condition = false → ∀ a, Z a → K a) :
    K (if condition then a else return false) := by
  cases condition
  · exact enough rfl _ carries.pure
  · exact h rfl

end Classes

/-! ## A level from its parts -/

section Level

variable {σ : Type} [Request σ] {typeOf : Typing} {p : ScopePoint} {Z K : SearchM σ Bool → Prop}
  {n m : Node} {nodes : List Node}

namespace Composes

variable (composes : Composes Z)

include composes

theorem runAt {n : Option Node} (h : ∀ c ∈ n, Z (run typeOf p c)) : Z (runAt typeOf p n) :=
  composes.together.runAt p (fun _ => p.flags) h

theorem runBackwards (h : ∀ c ∈ nodes, Z (run typeOf p c)) : Z (runBackwards typeOf p nodes) :=
  composes.together.runBackwards p (fun _ => p.flags) h

theorem runBelow {n : Option Node} (h : ∀ c ∈ n, ∀ d ∈ c.children, Z (run typeOf p d)) :
    Z (runBelow typeOf p n) :=
  composes.together.runBelow p (fun _ => p.flags) h

theorem offerDeclared {asked : Bool} (h : asked = true → Z (SearchM.offer (p.bindingOf n))) :
    Z (offerDeclared p n asked) := by
  cases asked
  · exact composes.pure
  · exact h rfl

/-- The parameters of a lambda expression: names alone, and the walks at the others. -/
theorem lambdaParameters {list : Node}
    (names : ∀ d, d = list ∨ d ∈ list.namedChildren → d.kind = .identifier →
      Z (SearchM.offer (p.bindingOf d)))
    (inner : ∀ d ∈ list.children, Z (run typeOf p d)) :
    Z (LocalWalk.lambdaParameters p (list, spread typeOf p list)) :=
  composes.together.lambdaParameters p (fun _ => p.flags) names inner

/-- A level of a walk belongs to the class as soon as the walks below do, those below its lists, what
the node declares, for a variable once it has begun, and the parts of the level that are no walks. -/
theorem level (parts : ∀ d ∈ n.children, Z (run typeOf p d))
    (inner : ∀ d ∈ n.children, d.IsLookedThrough → ∀ d' ∈ d.children, Z (run typeOf p d'))
    (declared : p.asksFor n.kind = true → (n.kind.isCodeVariable = true → p.HasBegun n) →
      Z (SearchM.offer (p.bindingOf n)))
    (label : n.kind = .switchLabel → p.flags.vars = true → p.isInside n = true →
      Z (labelConstants typeOf n))
    (parameters : n.kind = .lambdaExpression → p.flags.vars = true → p.isInside n = true →
      ∀ list ∈ n.children, list.field = some .parameters →
        Z (LocalWalk.lambdaParameters p (list, spread typeOf p list))) :
    Z (level typeOf p n) := by
  have levels : LevelsFrom (fun a : Unit → SearchM σ Bool => Z (a ())) typeOf p
      (fun _ => p.flags) n :=
    { parts
      inner
      codeVariable := by
        intro isVariable reached begun
        apply composes.offerDeclared
        intro asked
        obtain ⟨vars, arrived⟩ := Bool.and_eq_true_iff.1 asked
        exact declared (by simp [ScopePoint.asksFor, vars, isVariable]) fun _ => begun arrived
      typeParameter := by
        intro kind
        apply composes.offerDeclared
        intro asked
        refine declared ?_ (by simp [kind, Kind.isCodeVariable])
        simp [ScopePoint.asksFor, (Bool.and_eq_true_iff.1 asked).1, kind, Kind.declaresType]
      typeDeclaration := by
        intro isType
        apply ite_of (P := Z)
        · intro asked
          have types := (Bool.and_eq_true_iff.1 asked).1
          have noVariable := Kind.isCodeVariable_of_isTypeDeclaration isType
          exact declared (by simp [ScopePoint.asksFor, types, Kind.declaresType, isType])
            (by simp [noVariable])
        · exact fun _ => composes.guarded fun _ => composes.anyM parts
      label := by
        intro kind
        apply composes.guarded
        intro asked
        obtain ⟨vars, inside⟩ := Bool.and_eq_true_iff.1 asked
        exact label kind vars inside
      parameters := by
        intro kind inside list found
        obtain ⟨below, field⟩ := part_field found
        exact composes.guarded fun vars => parameters kind vars inside list below field }
  exact levels.level composes.together

end Composes

/-! ## A level on a path -/

/-- The lists below which a walk looks on its own. -/
def isList (kind : Kind) : Bool :=
  [.formalParameters, .other "inferred_parameters", .resourceSpecification].contains kind

/-- The nodes below which a walk takes only what starts before the position. -/
def isWalkedBackwards (kind : Kind) : Bool :=
  isList kind || [.block, .constructorBody, .switchBlock, .switchBlockStatementGroup,
    .localVariableDeclaration, .forStatement].contains kind

variable (typeOf p Z K) in
/-- A step of a path from a node to one below it, where the walk has `K`, while it has `Z` beside the
path. The walk may leave out what starts late, if `Z` is enough then. -/
structure StepsTo (n m : Node) : Prop where
  fits : n.Fits
  nodup : n.children.Nodup
  leads : n.Leads m
  code : ¬ m.IsInert ∧ n.mayHoldCode m = true
  carried : K (run typeOf p m)
  beside : ∀ d ∈ n.children, d ≠ m → Z (run typeOf p d)
  late : isWalkedBackwards n.kind = true → p.startsBefore m = false → ∀ a, Z a → K a

namespace StepsTo

variable (step : StepsTo typeOf p Z K n m) (carries : Carries Z K)

include step

/-- The path does not go through names, types or modifiers. -/
theorem kind_ne {kind : Kind} (header : kind.isHeader = true) : m.kind ≠ kind := by
  rintro rfl
  exact step.code.1 (.inr (.inl header))

theorem named : m.isNamed = true := by
  by_contra token
  exact step.code.1 (.inl (by simpa using token))

theorem start_named : n.isNamed = true :=
  step.fits.isNamed step.leads.below

theorem mem_namedChildren : m ∈ n.namedChildren :=
  List.mem_filter.2 ⟨step.leads.below, step.named⟩

theorem part_eq {f : Field} (single : f ∈ [.body, .parameters, .value]) (field : m.field = some f) :
    part n f = some m :=
  Node.find?_field (step.fits.single f single) step.leads.below field

/-- The path does not go through the nodes with another field. -/
theorem part_ne {f : Field} (field : m.field ≠ some f) {d : Node} (hd : d ∈ part n f) :
    d ∈ n.children ∧ d ≠ m := by
  obtain ⟨below, other⟩ := part_field hd
  refine ⟨below, ?_⟩
  rintro rfl
  exact field other

include carries

theorem anyM (sub : nodes.Sublist n.children) (member : m ∈ nodes) :
    K (nodes.anyM (run typeOf p)) :=
  carries.anyM (step.nodup.sublist sub) member step.carried fun d hd => step.beside d (sub.subset hd)

/-- The part of the path is one of the nodes that are walked backwards. -/
theorem backwards (isWalked : isWalkedBackwards n.kind = true) (sub : nodes.Sublist n.children)
    (member : m ∈ nodes) : K (runBackwards typeOf p nodes) := by
  cases early : p.startsBefore m with
  | true =>
    apply carries.anyM _ _ step.carried
    · intro d hd
      exact step.beside d (sub.subset (List.mem_reverse.1 (List.mem_filter.1 hd).1))
    · exact (List.nodup_reverse.2 (step.nodup.sublist sub)).filter _
    · exact List.mem_filter.2 ⟨List.mem_reverse.2 member, by simp [step.named, early]⟩
  | false =>
    apply step.late isWalked early
    apply carries.toComposes.anyM
    intro d hd
    obtain ⟨hd, chosen⟩ := List.mem_filter.1 hd
    apply step.beside d (sub.subset (List.mem_reverse.1 hd))
    rintro rfl
    simp [early] at chosen

theorem backwards_named (isWalked : isWalkedBackwards n.kind = true) :
    K (runBackwards typeOf p n.namedChildren) :=
  step.backwards carries isWalked List.filter_sublist step.mem_namedChildren

/-- The parameters of a lambda expression, with the path below their list. -/
theorem lambdaParameters (kind : n.kind ≠ .identifier)
    (names : ∀ d ∈ n.namedChildren, d.kind = .identifier → Z (SearchM.offer (p.bindingOf d))) :
    K (LocalWalk.lambdaParameters p (n, spread typeOf p n)) := by
  rw [lambdaParameters_spread, beq_eq_false_iff_ne.2 kind]
  simp only [Bool.false_eq_true, if_false]
  have sub : n.namedChildren.Sublist n.children := List.filter_sublist
  apply carries.anyM (List.nodup_reverse.2 (step.nodup.sublist sub))
    (List.mem_reverse.2 step.mem_namedChildren)
  · -- a name alone is offered at once, but the path goes on below this parameter
    have code : m.kind ≠ .identifier := step.kind_ne rfl
    rw [if_neg (by simpa using code)]
    exact step.carried
  · intro d hd other
    have hd := List.mem_reverse.1 hd
    split
    · next name => exact names d hd (by simpa using name)
    · exact step.beside d (sub.subset hd) other

end StepsTo

variable (typeOf p Z K) in
/-- A step of the path with all that its level asks for: the walks two levels below, the path below a
list, and names alone as parameters. -/
structure HandsOver (n m : Node) : Prop extends StepsTo typeOf p Z K n m where
  inner : ∀ d ∈ n.children, d ≠ m → d.IsLookedThrough → ∀ d' ∈ d.children, Z (run typeOf p d')
  onward : isList m.kind = true → ∃ d, StepsTo typeOf p Z K m d
  names : n.kind = .lambdaExpression → ∀ list ∈ n.children, list.field = some .parameters →
    ∀ d, d = list ∨ d ∈ list.namedChildren → d.kind = .identifier →
      Z (SearchM.offer (p.bindingOf d))

namespace HandsOver

variable (hands : HandsOver typeOf p Z K n m) (carries : Carries Z K)

include hands carries

/-- The walk looks below a list of its own, through which the path goes. -/
theorem list (isList : LocalWalk.isList m.kind = true) : K (runBelow typeOf p (some m)) := by
  obtain ⟨d, next⟩ := hands.onward isList
  exact next.backwards_named carries (by rw [isWalkedBackwards, isList, Bool.true_or])

omit carries in
theorem through {f : Field} (single : f ∈ [.body, .parameters, .value]) (field : m.field = some f) :
    K (runAt typeOf p (part n f)) := by
  rw [hands.part_eq single field]
  exact hands.carried

theorem runAt_apart {f : Field} (field : m.field ≠ some f) : Z (runAt typeOf p (part n f)) := by
  apply carries.toComposes.runAt
  intro d hd
  obtain ⟨below, other⟩ := hands.part_ne field hd
  exact hands.beside d below other

theorem runBelow_apart {d? : Option Node}
    (h : ∀ d ∈ d?, d ∈ n.children ∧ d ≠ m ∧ d.IsLookedThrough) : Z (runBelow typeOf p d?) := by
  apply carries.toComposes.runBelow
  intro d hd
  obtain ⟨below, other, lists⟩ := h d hd
  exact hands.inner d below other lists

/-- The path does not go through the parameters. -/
theorem parameters_apart (field : m.field ≠ some .parameters) :
    Z (runBelow typeOf p (part n .parameters)) := by
  apply hands.runBelow_apart carries
  intro d hd
  obtain ⟨below, other⟩ := hands.part_ne field hd
  exact ⟨below, other, .inl (part_field hd).2⟩

/-! ### Statements and members with several parts -/

theorem method (code : m.field = some .body ∨
      m.field = some .parameters ∧ m.kind = .formalParameters) :
    K (do
      if ← LocalWalk.runAt typeOf p (part n .body) then return true
      if ← runBelow typeOf p (part n .parameters) then return true
      runBelow typeOf p (n.childOfKind .typeParameters)) := by
  have typeParameters : Z (runBelow typeOf p (n.childOfKind .typeParameters)) := by
    apply hands.runBelow_apart carries
    intro d hd
    have kind : d.kind = .typeParameters := by simpa using List.find?_some hd
    refine ⟨List.mem_of_find?_eq_some hd, ?_, .inr (.inl kind)⟩
    rintro rfl
    exact hands.kind_ne rfl kind
  rcases code with field | ⟨field, list⟩
  · apply carries.left (hands.through (by simp) field)
    exact carries.toComposes.orElse (hands.parameters_apart carries (by simp [field])) typeParameters
  · apply carries.right (hands.runAt_apart carries (by simp [field]))
    rw [hands.part_eq (by simp) field]
    exact carries.left (hands.list carries (by rw [list]; rfl)) typeParameters

theorem catchClause (code : m.field = some .body) :
    K (do
      if ← LocalWalk.runAt typeOf p (part n .body) then return true
      (n.namedChildren.filter (·.kind == .catchFormalParameter)).anyM (run typeOf p)) := by
  apply carries.left (hands.through (by simp) code)
  apply carries.toComposes.anyM
  intro d hd
  obtain ⟨hd, kind⟩ := List.mem_filter.1 hd
  apply hands.beside d (List.mem_filter.1 hd).1
  rintro rfl
  have parameter : d.kind = .catchFormalParameter := by simpa using kind
  exact hands.kind_ne rfl parameter

theorem forStatement (kind : n.kind = .forStatement)
    (code : m.field = some .body ∨ m.field = some .init) :
    K (do
      if ← LocalWalk.runAt typeOf p (part n .body) then return true
      runBackwards typeOf p (n.childrenByField .init)) := by
  rcases code with field | field
  · apply carries.left (hands.through (by simp) field)
    apply carries.toComposes.runBackwards
    intro d hd
    obtain ⟨hd, init⟩ := List.mem_filter.1 hd
    apply hands.beside d hd
    rintro rfl
    simp [field] at init
  · apply carries.right (hands.runAt_apart carries (by simp [field]))
    exact hands.backwards carries (by rw [kind]; rfl) List.filter_sublist
      (List.mem_filter.2 ⟨hands.leads.below, by simp [field]⟩)

theorem enhancedFor (code : m.field = some .body ∨ m.field = some .value)
    {search : SearchM σ Bool} (declared : Z search) :
    K (do
      if ← LocalWalk.runAt typeOf p (part n .body) then return true
      if ← LocalWalk.runAt typeOf p (part n .value) then return true
      search) := by
  rcases code with field | field
  · apply carries.left (hands.through (by simp) field)
    exact carries.toComposes.orElse (hands.runAt_apart carries (by simp [field])) declared
  · apply carries.right (hands.runAt_apart carries (by simp [field]))
    exact carries.left (hands.through (by simp) field) declared

theorem tryWithResources :
    K (do
      if ← (n.namedChildren.filter (·.kind != .resourceSpecification)).anyM (run typeOf p) then
        return true
      runBelow typeOf p (n.namedChildren.filter (·.kind == .resourceSpecification)).getLast?) := by
  by_cases kind : m.kind = .resourceSpecification
  · apply carries.right
    · apply carries.toComposes.anyM
      intro d hd
      obtain ⟨hd, apart⟩ := List.mem_filter.1 hd
      apply hands.beside d (List.mem_filter.1 hd).1
      rintro rfl
      simp [kind] at apart
    · rw [hands.fits.getLast?_resources hands.mem_namedChildren kind]
      exact hands.list carries (by rw [kind]; rfl)
  · apply carries.left
    · apply hands.anyM carries
      · exact List.filter_sublist.trans List.filter_sublist
      · exact List.mem_filter.2 ⟨hands.mem_namedChildren, by simpa using kind⟩
    · apply hands.runBelow_apart carries
      intro d hd
      obtain ⟨hd, resources⟩ := List.mem_filter.1 (List.mem_of_getLast? hd)
      have resources : d.kind = .resourceSpecification := by simpa using resources
      refine ⟨(List.mem_filter.1 hd).1, ?_, .inr (.inr resources)⟩
      rintro rfl
      exact kind resources

theorem lambda (vars : m.field = some .parameters → p.flags.vars = true)
    (isLambda : n.kind = .lambdaExpression)
    (code : m.field = some .body ∨ m.field = some .parameters ∧
      (m.kind = .formalParameters ∨ m.kind = .other "inferred_parameters")) :
    K (do
      if ← LocalWalk.runAt typeOf p (part n .body) then return true
      match part n .parameters with
      | some list =>
        if p.flags.vars then LocalWalk.lambdaParameters p (list, spread typeOf p list)
        else return false
      | none => return false) := by
  rcases code with field | ⟨field, kind⟩
  · apply carries.left (hands.through (by simp) field)
    cases hlist : part n .parameters with
    | none => exact carries.pure
    | some list =>
      obtain ⟨below, other⟩ := hands.part_ne (by simp [field]) hlist
      apply carries.toComposes.guarded
      intro _
      have field' := (part_field hlist).2
      exact carries.toComposes.lambdaParameters (hands.names isLambda list below field')
        (hands.inner list below other (.inl field'))
  · apply carries.right (hands.runAt_apart carries (by simp [field]))
    have list : isList m.kind = true := by rcases kind with kind | kind <;> rw [kind] <;> rfl
    obtain ⟨d, next⟩ := hands.onward list
    rw [hands.part_eq (by simp) field]
    simp only [vars field, if_true]
    apply next.lambdaParameters carries
    · rcases kind with kind | kind <;> simp [kind]
    · exact fun d hd => hands.names isLambda m hands.leads.below field d (.inr hd)

/-- One level of a walk on the path hands on what the next level has. The parameters of a lambda
expression are walked only if variables are asked for. -/
theorem level
    (vars : n.kind = .lambdaExpression → m.field = some .parameters → p.flags.vars = true)
    (field : n.kind.isFieldDeclaration = false)
    (outside : p.isInside n = false → ∀ a, Z a → K a)
    (declared : p.asksFor n.kind = true → Z (SearchM.offer (p.bindingOf n))) :
    K (level typeOf p n) := by
  have all : K (n.children.anyM (run typeOf p)) :=
    hands.anyM carries (List.Sublist.refl _) hands.leads.below
  have code := hands.code.2
  unfold Node.mayHoldCode at code
  unfold LocalWalk.level
  cases kind : n.kind <;> rw [kind] at code declared
  case methodDeclaration | constructorDeclaration | compactConstructorDeclaration =>
    apply carries.guarded _ outside
    intro _
    exact hands.method carries (by simpa using code)
  case block | constructorBody | switchBlock =>
    exact carries.guarded (fun _ => hands.backwards_named carries (by rw [kind]; rfl)) outside
  case switchBlockStatementGroup => exact hands.backwards_named carries (by rw [kind]; rfl)
  case localVariableDeclaration =>
    exact hands.backwards carries (by rw [kind]; rfl) List.filter_sublist
      (List.mem_filter.2 ⟨hands.leads.below, code⟩)
  case variableDeclarator | formalParameter | spreadParameter | catchFormalParameter | resource =>
    refine carries.right (carries.toComposes.offerDeclared fun asked => declared ?_) all
    rw [ScopePoint.asksFor, (Bool.and_eq_true_iff.1 asked).1]
    rfl
  case typeParameter => cases code
  case classDeclaration | interfaceDeclaration | enumDeclaration | recordDeclaration |
      annotationTypeDeclaration =>
    apply ite_of (P := K)
    · intro ended
      apply outside (ScopePoint.isInside_of_endsBefore (Bool.and_eq_true_iff.1 ended).2)
      apply declared
      rw [ScopePoint.asksFor, (Bool.and_eq_true_iff.1 ended).1]
      simp [Kind.declaresType, Kind.isTypeDeclaration]
    · intro _
      exact carries.guarded (fun _ => all) outside
  case catchClause =>
    apply carries.guarded _ outside
    intro _
    exact hands.catchClause carries (by simpa using code)
  case forStatement =>
    apply carries.guarded _ outside
    intro _
    obtain ⟨condition, update⟩ := hands.leads.loop kind
    apply hands.forStatement carries kind
    simpa [condition, update] using code
  case enhancedForStatement =>
    apply carries.guarded _ outside
    intro _
    apply hands.enhancedFor carries (by simpa using code)
    refine carries.toComposes.offerDeclared fun asked => declared ?_
    rw [ScopePoint.asksFor, (Bool.and_eq_true_iff.1 asked).1]
    rfl
  case tryWithResourcesStatement =>
    apply carries.guarded _ outside
    intro _
    exact hands.tryWithResources carries
  case lambdaExpression =>
    apply carries.guarded _ outside
    intro _
    exact hands.lambda carries (vars kind) kind (by simpa using code)
  case switchLabel =>
    have barrier := hands.leads.passable
    rw [kind] at barrier
    cases barrier
  case fieldDeclaration | constantDeclaration =>
    rw [kind] at field
    cases field
  all_goals exact carries.guarded (fun _ => all) outside

end HandsOver

end Level

end LocalWalk

end JavaScope
