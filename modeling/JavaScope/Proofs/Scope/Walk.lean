import JavaScope.Scope.Local
import JavaScope.Proofs.Grammar
import JavaScope.Proofs.Scope.Course

/-!
# The course of a local walk

The walk at a node, in terms of the walks at the nodes below it. Walks that are made at once, with
several requests or for several kinds, go through a level together, so that what holds of the walks
below and of what the level itself offers holds of the level. The course of a walk is an instance:
what a walk offers are the bindings of nodes and the constants of enums.
-/

namespace JavaScope

/-- The member around a node is the first thing of its sort on the way up, where types count, too. -/
theorem Node.bodyDeclaration_eq_some {n d : Node} (h : n.bodyDeclaration = some d) :
    (d.kind.isBodyDeclaration = true ∨ d.isInitializerBlock = true) ∧
      ∃ counts : Node → Bool, n.climb.find? counts = some d ∧
        ∀ m, m.kind.isTypeDeclaration = true → counts m = true := by
  rw [bodyDeclaration] at h
  split at h
  · cases h
  · next found =>
    split at h
    · next isMember =>
      cases h
      exact ⟨Bool.or_eq_true_iff.1 isMember, _, found, fun m type => by simp [type]⟩
    · cases h

/-- A list below which a walk looks from the level above the list. -/
def Node.IsLookedThrough (n : Node) : Prop :=
  n.field = some .parameters ∨ n.kind = .typeParameters ∨ n.kind = .resourceSpecification

namespace ScopePoint

/-- The node or a part of it starts before the position. -/
def HasBegun (p : ScopePoint) (n : Node) : Prop :=
  p.startsBefore n = true ∨ ∃ part ∈ n.children, p.startsBefore part = true

/-- The same position, asked for something else. -/
def asking (p : ScopePoint) (flags : Flags) : ScopePoint :=
  { p with flags }

section Asking

variable (p : ScopePoint) (flags : Flags) (n : Node)

@[simp] theorem flags_asking : (p.asking flags).flags = flags := rfl

@[simp] theorem bindingOf_asking : (p.asking flags).bindingOf = p.bindingOf := rfl

@[simp] theorem isInside_asking : (p.asking flags).isInside n = p.isInside n := rfl

@[simp] theorem startsBefore_asking : (p.asking flags).startsBefore n = p.startsBefore n := rfl

@[simp] theorem endsBefore_asking : (p.asking flags).endsBefore n = p.endsBefore n := rfl

end Asking

end ScopePoint

namespace LocalWalk

variable (typeOf : Typing) (p : ScopePoint)

/-! ## One level of a walk -/

section Level

variable {σ : Type} [Request σ]

/-- The walk at a node, and the walks at the named nodes below it. -/
def spread (n : Node) : LocalWalk σ :=
  ⟨run typeOf p n, n.namedChildren.map fun c => (c, run typeOf p c)⟩

theorem fold_step (n : Node) : n.fold (step (σ := σ) typeOf p) = spread typeOf p n := by
  have parts : ∀ c : Node, (c.fold (step (σ := σ) typeOf p)).here = run typeOf p c := fun _ => rfl
  rw [spread, run, Node.fold_eq]
  simp only [step, Node.namedChildren, List.filter_map, List.map_map, Function.comp_def, parts]

/-- The walk at a node, from the walks below it. -/
theorem run_eq (n : Node) :
    run (σ := σ) typeOf p n = atNode typeOf p n (n.children.map fun c => (c, spread typeOf p c)) := by
  simp only [run, Node.fold_eq (step typeOf p) n, fold_step]
  rfl

/-- The walk at a node that may be missing. -/
def runAt (n : Option Node) : SearchM σ Bool :=
  match n with
  | some n => run typeOf p n
  | none => return false

/-- The walks at the named nodes that start before the position, from the last to the first. -/
def runBackwards (nodes : List Node) : SearchM σ Bool :=
  (nodes.reverse.filter fun n => n.isNamed && p.startsBefore n).anyM (run typeOf p)

/-- The backwards walks below a node that may be missing. -/
def runBelow (n : Option Node) : SearchM σ Bool :=
  match n with
  | some n => runBackwards typeOf p n.namedChildren
  | none => return false

/-- The node directly below with a field, as a walk finds it. -/
def part (n : Node) (f : Field) : Option Node :=
  n.children.find? fun c => c.field == some f

theorem part_field {n d : Node} {f : Field} (h : d ∈ part n f) :
    d ∈ n.children ∧ d.field = some f :=
  ⟨List.mem_of_find?_eq_some h, by simpa using List.find?_some h⟩

/-- What a walk does at a named node, by its kind. -/
def level (n : Node) : SearchM σ Bool :=
  match n.kind with
  | .methodDeclaration | .constructorDeclaration | .compactConstructorDeclaration => do
    if p.isInside n then
      if ← runAt typeOf p (part n .body) then return true
      if ← runBelow typeOf p (part n .parameters) then return true
      runBelow typeOf p (n.childOfKind .typeParameters)
    else return false
  | .block | .constructorBody | .switchBlock =>
    if p.isInside n then runBackwards typeOf p n.namedChildren else return false
  | .switchBlockStatementGroup => runBackwards typeOf p n.namedChildren
  | .localVariableDeclaration => runBackwards typeOf p n.declarators
  | .variableDeclarator | .formalParameter | .spreadParameter | .catchFormalParameter
  | .resource => do
    if ← offerDeclared p n (p.flags.vars && p.startsBefore n) then return true
    n.children.anyM (run typeOf p)
  | .typeParameter => offerDeclared p n (p.flags.types && p.startsBefore n)
  | .classDeclaration | .interfaceDeclaration | .enumDeclaration | .recordDeclaration
  | .annotationTypeDeclaration =>
    if p.flags.types && p.endsBefore n then SearchM.offer (p.bindingOf n)
    else if p.isInside n then n.children.anyM (run typeOf p)
    else return false
  | .catchClause => do
    if p.isInside n then
      if ← runAt typeOf p (part n .body) then return true
      (n.namedChildren.filter (·.kind == .catchFormalParameter)).anyM (run typeOf p)
    else return false
  | .forStatement => do
    if p.isInside n then
      if ← runAt typeOf p (part n .body) then return true
      runBackwards typeOf p (n.childrenByField .init)
    else return false
  | .enhancedForStatement => do
    if p.isInside n then
      if ← runAt typeOf p (part n .body) then return true
      if ← runAt typeOf p (part n .value) then return true
      offerDeclared p n (p.flags.vars && (n.childByField .name).any p.startsBefore)
    else return false
  | .tryWithResourcesStatement => do
    if p.isInside n then
      if ← (n.namedChildren.filter (·.kind != .resourceSpecification)).anyM (run typeOf p) then
        return true
      runBelow typeOf p (n.namedChildren.filter (·.kind == .resourceSpecification)).getLast?
    else return false
  | .lambdaExpression => do
    if p.isInside n then
      if ← runAt typeOf p (part n .body) then return true
      match part n .parameters with
      | some list =>
        if p.flags.vars then lambdaParameters p (list, spread typeOf p list) else return false
      | none => return false
    else return false
  | .switchLabel =>
    if p.flags.vars && p.isInside n then labelConstants typeOf n else return false
  | .fieldDeclaration | .constantDeclaration => return false
  | _ => if p.isInside n then n.children.anyM (run typeOf p) else return false

omit [Request σ] in
theorem anyM_map {α β : Type} (f : α → β) (g : β → SearchM σ Bool) (xs : List α) :
    (xs.map f).anyM g = xs.anyM fun x => g (f x) := by
  induction xs with
  | nil => rfl
  | cons x xs ih => simp only [List.map_cons, List.anyM_cons, ih]

theorem atField_spread (nodes : List Node) (f : Field) :
    atField (σ := σ) (nodes.map fun c => (c, spread typeOf p c)) f =
      runAt typeOf p (nodes.find? fun c => c.field == some f) := by
  rw [atField, List.find?_map]
  simp only [Function.comp_def]
  cases nodes.find? fun c => c.field == some f <;> rfl

theorem backwards_map (nodes : List Node) :
    backwards (σ := σ) p (nodes.map fun c => (c, run typeOf p c)) =
      runBackwards typeOf p nodes := by
  simp only [backwards, runBackwards, ← List.map_reverse, List.filter_map, anyM_map,
    Function.comp_def]

theorem backwardsBelow_map (n : Option Node) :
    backwardsBelow (σ := σ) p (n.map fun c => (c, spread typeOf p c)) = runBelow typeOf p n := by
  cases n with
  | none => rfl
  | some n => exact backwards_map typeOf p n.namedChildren

/-- One level of a walk, as walks at the nodes below. -/
theorem run_eq_level (n : Node) (hn : n.isNamed = true) :
    run (σ := σ) typeOf p n = level typeOf p n := by
  have here : ∀ c, (spread (σ := σ) typeOf p c).here = run typeOf p c := fun _ => rfl
  rw [run_eq, atNode, level]
  simp only [hn, Bool.not_true, Bool.false_eq_true, if_false, List.find?_map, List.filter_map,
    List.map_map, Function.comp_def, atField_spread, List.getLast?_map, backwardsBelow_map,
    anyM_map, here, backwards_map]
  cases n.kind
  case tryWithResourcesStatement =>
    simp only [Node.namedChildren, List.filter_filter, Bool.and_comm]
  case lambdaExpression =>
    simp only [part]
    cases n.children.find? fun c => c.field == some .parameters <;> rfl
  all_goals rfl

/-- The parameters of a lambda expression: a name alone in place of a list, or a list where names
alone are offered and the others are walked. -/
theorem lambdaParameters_spread (list : Node) :
    lambdaParameters (σ := σ) p (list, spread typeOf p list) =
      if list.kind == .identifier then SearchM.offer (p.bindingOf list)
      else list.namedChildren.reverse.anyM fun c =>
        if c.kind == .identifier then SearchM.offer (p.bindingOf c) else run typeOf p c := by
  simp only [lambdaParameters, spread, ← List.map_reverse, anyM_map]

theorem run_of_not_named (n : Node) (hn : n.isNamed = false) :
    run (σ := σ) typeOf p n = return false := by
  rw [run_eq, atNode, hn]
  rfl

end Level

/-! ## Walks that are made at once -/

section Together

universe u

variable {ι : Type u} {σ : ι → Type}

/-- Of searches that are made at once, one for each index, those of the class may follow each other,
and need not be made. -/
structure ComposesTogether (Z : (∀ i, SearchM (σ i) Bool) → Prop) : Prop where
  pure : Z fun _ => pure false
  orElse : ∀ {a b}, Z a → Z b → Z fun i => do
    if ← a i then return true
    b i

namespace ComposesTogether

variable {Z : (∀ i, SearchM (σ i) Bool) → Prop} (composes : ComposesTogether Z)

include composes

theorem anyM {α : Type} {xs : List α} {f : α → ∀ i, SearchM (σ i) Bool}
    (h : ∀ x ∈ xs, Z (f x)) : Z fun i => xs.anyM fun x => f x i := by
  induction xs with
  | nil => exact composes.pure
  | cons x xs ih =>
    simp only [List.anyM_cons]
    exact composes.orElse (h x List.mem_cons_self) (ih fun y hy => h y (List.mem_cons_of_mem x hy))

theorem guarded {condition : Bool} {a : ∀ i, SearchM (σ i) Bool} (h : condition = true → Z a) :
    Z fun i => if condition then a i else return false := by
  cases condition
  · exact composes.pure
  · exact h rfl

variable [∀ i, Request (σ i)] {typeOf : Typing} (p : ScopePoint) (flags : ι → Flags)

theorem runAt {n : Option Node} (h : ∀ c ∈ n, Z fun i => run typeOf (p.asking (flags i)) c) :
    Z fun i => runAt typeOf (p.asking (flags i)) n := by
  cases n with
  | none => exact composes.pure
  | some c => exact h c rfl

theorem runBackwards {nodes : List Node}
    (h : ∀ c ∈ nodes, Z fun i => run typeOf (p.asking (flags i)) c) :
    Z fun i => runBackwards typeOf (p.asking (flags i)) nodes := by
  simp only [LocalWalk.runBackwards, ScopePoint.startsBefore_asking]
  apply composes.anyM
  intro c hc
  exact h c (List.mem_reverse.1 (List.mem_filter.1 hc).1)

theorem runBelow {n : Option Node}
    (h : ∀ c ∈ n, ∀ d ∈ c.children, Z fun i => run typeOf (p.asking (flags i)) d) :
    Z fun i => runBelow typeOf (p.asking (flags i)) n := by
  cases n with
  | none => exact composes.pure
  | some c => exact composes.runBackwards p flags fun d hd => h c rfl d (List.mem_filter.1 hd).1

theorem lambdaParameters {list : Node}
    (names : ∀ d, d = list ∨ d ∈ list.namedChildren → d.kind = .identifier →
      Z fun _ => SearchM.offer (p.bindingOf d))
    (inner : ∀ d ∈ list.children, Z fun i => run typeOf (p.asking (flags i)) d) :
    Z fun i => lambdaParameters (p.asking (flags i))
      (list, spread typeOf (p.asking (flags i)) list) := by
  simp only [lambdaParameters_spread, ScopePoint.bindingOf_asking]
  by_cases single : list.kind = .identifier
  · simp only [single, beq_self_eq_true, if_true]
    exact names list (.inl rfl) single
  · simp only [beq_eq_false_iff_ne.2 single, Bool.false_eq_true, if_false]
    apply composes.anyM
    intro d hd
    have below := List.mem_reverse.1 hd
    by_cases name : d.kind = .identifier
    · simp only [name, beq_self_eq_true, if_true]
      exact names d (.inr below) name
    · simp only [beq_eq_false_iff_ne.2 name, Bool.false_eq_true, if_false]
      exact inner d (List.mem_filter.1 below).1

end ComposesTogether

variable (Z : (∀ i, SearchM (σ i) Bool) → Prop) [∀ i, Request (σ i)] (typeOf : Typing)
  (p : ScopePoint) (flags : ι → Flags)

/-- What the levels at a node are made of: the walks below it and below its lists, and what a level
does by itself. A variable is offered only once it has begun. -/
structure LevelsFrom (n : Node) : Prop where
  parts : ∀ d ∈ n.children, Z fun i => run typeOf (p.asking (flags i)) d
  inner : ∀ d ∈ n.children, d.IsLookedThrough → ∀ d' ∈ d.children,
    Z fun i => run typeOf (p.asking (flags i)) d'
  codeVariable : n.kind.isCodeVariable = true → ∀ reached, (reached = true → p.HasBegun n) →
    Z fun i => offerDeclared (p.asking (flags i)) n ((flags i).vars && reached)
  typeParameter : n.kind = .typeParameter →
    Z fun i => offerDeclared (p.asking (flags i)) n ((flags i).types && p.startsBefore n)
  typeDeclaration : n.kind.isTypeDeclaration = true → Z fun i =>
    if (flags i).types && p.endsBefore n then SearchM.offer (p.bindingOf n)
    else if p.isInside n then n.children.anyM (run typeOf (p.asking (flags i)))
    else return false
  label : n.kind = .switchLabel → Z fun i =>
    if (flags i).vars && p.isInside n then labelConstants typeOf n else return false
  parameters : n.kind = .lambdaExpression → p.isInside n = true → ∀ list ∈ part n .parameters,
    Z fun i =>
      if (flags i).vars then
        lambdaParameters (p.asking (flags i)) (list, spread typeOf (p.asking (flags i)) list)
      else return false

namespace LevelsFrom

variable {Z typeOf p flags} {n : Node} {nodes : List Node}
  (levels : LevelsFrom Z typeOf p flags n) (composes : ComposesTogether Z)

include levels composes

theorem anyM (sub : nodes.Sublist n.children) :
    Z fun i => nodes.anyM (run typeOf (p.asking (flags i))) :=
  composes.anyM fun d hd => levels.parts d (sub.subset hd)

theorem runBackwards (sub : nodes.Sublist n.children) :
    Z fun i => LocalWalk.runBackwards typeOf (p.asking (flags i)) nodes :=
  composes.runBackwards p flags fun d hd => levels.parts d (sub.subset hd)

theorem runAt (f : Field) : Z fun i => LocalWalk.runAt typeOf (p.asking (flags i)) (part n f) :=
  composes.runAt p flags fun d hd => levels.parts d (part_field hd).1

theorem runBelow {d? : Option Node} (h : ∀ d ∈ d?, d ∈ n.children ∧ d.IsLookedThrough) :
    Z fun i => LocalWalk.runBelow typeOf (p.asking (flags i)) d? :=
  composes.runBelow p flags fun d hd => levels.inner d (h d hd).1 (h d hd).2

/-! ### Statements and members with several parts -/

theorem method :
    Z (fun i => do
      if ← LocalWalk.runAt typeOf (p.asking (flags i)) (part n .body) then return true
      if ← LocalWalk.runBelow typeOf (p.asking (flags i)) (part n .parameters) then return true
      LocalWalk.runBelow typeOf (p.asking (flags i)) (n.childOfKind .typeParameters)) := by
  apply composes.orElse (levels.runAt composes .body)
  apply composes.orElse
  · apply levels.runBelow composes
    intro d hd
    obtain ⟨below, field⟩ := part_field hd
    exact ⟨below, .inl field⟩
  · apply levels.runBelow composes
    intro d hd
    exact ⟨List.mem_of_find?_eq_some hd, .inr (.inl (by simpa using List.find?_some hd))⟩

theorem catchClause :
    Z (fun i => do
      if ← LocalWalk.runAt typeOf (p.asking (flags i)) (part n .body) then return true
      (n.namedChildren.filter (·.kind == .catchFormalParameter)).anyM
        (run typeOf (p.asking (flags i)))) :=
  composes.orElse (levels.runAt composes .body)
    (levels.anyM composes (List.filter_sublist.trans List.filter_sublist))

theorem forStatement :
    Z (fun i => do
      if ← LocalWalk.runAt typeOf (p.asking (flags i)) (part n .body) then return true
      LocalWalk.runBackwards typeOf (p.asking (flags i)) (n.childrenByField .init)) :=
  composes.orElse (levels.runAt composes .body)
    (levels.runBackwards composes List.filter_sublist)

theorem enhancedFor (kind : n.kind = .enhancedForStatement) :
    Z (fun i => do
      if ← LocalWalk.runAt typeOf (p.asking (flags i)) (part n .body) then return true
      if ← LocalWalk.runAt typeOf (p.asking (flags i)) (part n .value) then return true
      offerDeclared (p.asking (flags i)) n
        ((flags i).vars && (n.childByField .name).any p.startsBefore)) := by
  apply composes.orElse (levels.runAt composes .body)
  apply composes.orElse (levels.runAt composes .value)
  apply levels.codeVariable (by rw [kind]; rfl)
  intro begun
  obtain ⟨name, named, begun⟩ := (Option.any_eq_true _ _).1 begun
  exact .inr ⟨name, (Node.mem_children_of_childByField named).1, begun⟩

theorem tryWithResources :
    Z (fun i => do
      if ← (n.namedChildren.filter (·.kind != .resourceSpecification)).anyM
          (run typeOf (p.asking (flags i))) then return true
      LocalWalk.runBelow typeOf (p.asking (flags i))
        (n.namedChildren.filter (·.kind == .resourceSpecification)).getLast?) := by
  apply composes.orElse
  · exact levels.anyM composes (List.filter_sublist.trans List.filter_sublist)
  · apply levels.runBelow composes
    intro d hd
    obtain ⟨below, kind⟩ := List.mem_filter.1 (List.mem_of_getLast? hd)
    exact ⟨(List.mem_filter.1 below).1, .inr (.inr (by simpa using kind))⟩

theorem lambda (kind : n.kind = .lambdaExpression) (inside : p.isInside n = true) :
    Z (fun i => do
      if ← LocalWalk.runAt typeOf (p.asking (flags i)) (part n .body) then return true
      match part n .parameters with
      | some list =>
        if (flags i).vars then
          lambdaParameters (p.asking (flags i)) (list, spread typeOf (p.asking (flags i)) list)
        else return false
      | none => return false) := by
  apply composes.orElse (levels.runAt composes .body)
  cases hlist : part n .parameters with
  | none => exact composes.pure
  | some list => exact levels.parameters kind inside list hlist

/-- The levels at a node belong to the class as soon as what they are made of does. -/
theorem level : Z fun i => level typeOf (p.asking (flags i)) n := by
  have all := levels.anyM composes (List.Sublist.refl n.children)
  have codeVariable := levels.codeVariable
  have typeDeclaration := levels.typeDeclaration
  -- the walks stand at one position, so that each guard of the level is one condition for all of them
  unfold LocalWalk.level
  simp only [ScopePoint.flags_asking, ScopePoint.isInside_asking, ScopePoint.startsBefore_asking,
    ScopePoint.endsBefore_asking, ScopePoint.bindingOf_asking]
  cases kind : n.kind <;> rw [kind] at codeVariable typeDeclaration
  case methodDeclaration | constructorDeclaration | compactConstructorDeclaration =>
    exact composes.guarded fun _ => levels.method composes
  case block | constructorBody | switchBlock =>
    exact composes.guarded fun _ => levels.runBackwards composes List.filter_sublist
  case switchBlockStatementGroup | localVariableDeclaration =>
    exact levels.runBackwards composes List.filter_sublist
  case variableDeclarator | formalParameter | spreadParameter | catchFormalParameter | resource =>
    exact composes.orElse (codeVariable rfl _ .inl) all
  case typeParameter => exact levels.typeParameter kind
  case classDeclaration | interfaceDeclaration | enumDeclaration | recordDeclaration |
      annotationTypeDeclaration =>
    exact typeDeclaration rfl
  case catchClause => exact composes.guarded fun _ => levels.catchClause composes
  case forStatement => exact composes.guarded fun _ => levels.forStatement composes
  case enhancedForStatement => exact composes.guarded fun _ => levels.enhancedFor composes kind
  case tryWithResourcesStatement =>
    exact composes.guarded fun _ => levels.tryWithResources composes
  case lambdaExpression => exact composes.guarded fun inside => levels.lambda composes kind inside
  case switchLabel => exact levels.label kind
  case fieldDeclaration | constantDeclaration => exact composes.pure
  all_goals exact composes.guarded fun _ => all

end LevelsFrom

end Together

/-! ## The course of a walk -/

section Course

variable {typeOf p} {I : Environment → Prop} {J : Offer → Prop}
  (keeps : ∀ n, Keeps I (typeOf n))
  (declared : ∀ n e, I e → J ⟨e.store, p.bindingOf n⟩)
  (constants : ∀ e e' t, I e → I e' → ∀ v ∈ e.store.enumConstants t,
    J ⟨e'.store, some (.variable v)⟩)

/-- The walk at a node has a course. -/
abbrev Walks (typeOf : Typing) (p : ScopePoint) (I : Environment → Prop) (J : Offer → Prop)
    (n : Node) : Prop :=
  HasCourse I J id fun _ _ => run typeOf p n

include declared in
theorem hasCourse_offerDeclared (n : Node) (asked : Bool) :
    HasCourse I J id fun _ _ => offerDeclared p n asked := by
  cases asked
  · exact .pure rfl
  · exact .offer (declared n)

include keeps constants in
theorem hasCourse_labelConstants (n : Node) :
    HasCourse I J id fun _ _ => labelConstants typeOf n := by
  unfold labelConstants
  split
  · exact .pure rfl
  · split
    · exact .pure rfl
    · apply (HasCourse.lift (keeps _)).bind_silent
      intro t
      cases t with
      | none => exact .pure rfl
      | some t =>
        refine .read_bind fun e he => ?_
        split
        · refine .offerAll fun b hb e' he' => ?_
          obtain ⟨v, hv, rfl⟩ := List.mem_map.1 hb
          exact constants e e' t he he' v hv
        · exact .pure rfl

/-- A type of requests, with the way in which they take candidates. -/
abbrev AnyRequest := (σ : Type) × Request σ

instance (i : AnyRequest) : Request i.1 := i.2

/-- Searches for every kind of request have a course together. -/
theorem composesTogether_hasCourse :
    ComposesTogether fun a : ∀ i : AnyRequest, SearchM i.1 Bool =>
      HasCourse I J id fun σ inst => a ⟨σ, inst⟩ where
  pure := .pure rfl
  orElse := .orElse

include keeps declared constants in
/-- One level of a walk has a course if the walks two levels below do. -/
theorem hasCourse_level {n : Node} (h : ∀ c ∈ n.children, Walks typeOf p I J c)
    (h' : ∀ c ∈ n.children, ∀ d ∈ c.children, Walks typeOf p I J d) :
    HasCourse I J id fun _ _ => level typeOf p n := by
  have levels : LevelsFrom (fun a : ∀ i : AnyRequest, SearchM i.1 Bool =>
      HasCourse I J id fun σ inst => a ⟨σ, inst⟩) typeOf p (fun _ => p.flags) n :=
    { parts := h
      inner := fun d hd _ => h' d hd
      codeVariable := fun _ _ _ => hasCourse_offerDeclared declared n _
      typeParameter := fun _ => hasCourse_offerDeclared declared n _
      typeDeclaration := fun _ => .ite (.offer (declared n)) (.ite (.anyM h) (.pure rfl))
      label := fun _ => .ite (hasCourse_labelConstants keeps constants n) (.pure rfl)
      parameters := fun _ _ list found =>
        have lists := composesTogether_hasCourse.lambdaParameters p (fun _ => p.flags)
          (fun d _ _ => .offer (declared d)) (h' list (part_field found).1)
        .ite lists (.pure rfl) }
  exact levels.level composesTogether_hasCourse

include keeps declared constants in
theorem hasCourse_run (n : Node) : HasCourse I J id fun _ _ => run typeOf p n := by
  have both : Walks typeOf p I J n ∧ ∀ c ∈ n.children, Walks typeOf p I J c := by
    induction n using Node.induction with
    | h n ih =>
      refine ⟨?_, fun c hc => (ih c hc).1⟩
      by_cases named : n.isNamed
      · simp only [Walks, run_eq_level typeOf p n named]
        exact hasCourse_level keeps declared constants (fun c hc => (ih c hc).1)
          fun c hc => (ih c hc).2
      · simp only [Walks, run_of_not_named typeOf p n (by simpa using named)]
        exact .pure rfl
  exact both.1

end Course

end LocalWalk

end JavaScope
