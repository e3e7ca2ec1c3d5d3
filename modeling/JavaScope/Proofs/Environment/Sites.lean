import JavaScope.Environment.Declare
import JavaScope.Proofs.Grammar

/-!
# Sites of declarations

The declarations that the first pass meets in a tree, in its order, each with the node that it is
filed under and the nodes of the type and the method that the pass finds itself in. Nothing is read
from a store, so where the sites stand is a matter of the tree alone.
-/

namespace JavaScope

/-! ## Sites -/

/-- What is declared at a site. -/
inductive Role where
  | type (isLocal : Bool)
  | anonymousClass
  | typeParameter
  | method
  | field
  | localVariable
  deriving DecidableEq

/-- The kind of the binding that is declared. -/
def Role.kind : Role → BindingKind
  | .type _ | .anonymousClass | .typeParameter => .type
  | .method => .method
  | .field | .localVariable => .variable

/-- Types, methods and fields, but no type parameters and no variables of code. -/
def Role.isMember : Role → Bool
  | .typeParameter | .localVariable => false
  | _ => true

/-- A declaration, the node it is filed under, and the nodes of the type and of the method in which
the first pass finds it. -/
structure Site where
  role : Role
  node : Node
  place : Node
  owner : Option Node
  method : Option Node

/-- The nodes of what encloses a node in the first pass. -/
structure Enclosure where
  owner : Option Node
  method : Option Node
  inBody : Bool

/-- The sites at a node, below it, and below each of the named nodes below it. -/
structure Plan where
  here : Enclosure → List Site
  inside : Enclosure → List Site
  parts : List (Node × (Enclosure → List Site))

namespace Plan

/-- A variable that is filed under its name, if it has one. -/
def named (role : Role) (n : Node) (owner method : Option Node) : List Site :=
  n.nameNode.toList.map fun place => ⟨role, n, place, owner, method⟩

/-- The type parameters of a declaration. -/
def typeParameters (n : Node) (owner method : Option Node) : List Site :=
  match n.childOfKind .typeParameters with
  | some list => (list.namedChildren.filter fun each => each.kind == .typeParameter).map fun each =>
      ⟨.typeParameter, each, each, owner, method⟩
  | none => []

/-- The fields in the header of a record. -/
def recordComponents (n : Node) : List Site :=
  match n.childByField .parameters with
  | some list => (list.namedChildren.filter fun each => each.kind == .formalParameter).flatMap
      fun each => named .field each (some n) none
  | none => []

/-- The variable of a node in a method, or the names alone of a lambda expression. -/
def inMethod (n : Node) (method : Option Node) : List Site :=
  match n.kind with
  | .variableDeclarator =>
    if n.parent.any fun up => up.kind == .localVariableDeclaration then
      named .localVariable n none method
    else []
  | .catchFormalParameter | .enhancedForStatement | .resource => named .localVariable n none method
  | .formalParameter =>
    if Draft.isLambdaParameter n then named .localVariable n none method else []
  | .lambdaExpression => (Draft.inferredParameters n).map fun name =>
      ⟨.localVariable, name, name, none, method⟩
  | _ => []

/-- The sites below the first node with a field. -/
def insideField (below : List (Node × Plan)) (f : Field) (around : Enclosure) : List Site :=
  match below.find? fun (c, _) => c.field == some f with
  | some (_, plan) => plan.inside around
  | none => []

/-- The parameters of a method, and the sites in them. -/
def parameters (below : List (Node × Plan)) (method : Node) (around : Enclosure) : List Site :=
  match below.find? fun (c, _) => c.field == some .parameters with
  | some (_, plan) => plan.parts.flatMap fun (each, inside) =>
      (if each.kind.isMethodParameter then named .localVariable each none (some method) else []) ++
        inside around
  | none => []

/-- The sites of one node, from those below. -/
def step (n : Node) (below : List (Node × Plan)) : Plan :=
  let children := below.filter (·.1.isNamed)
  let inside := fun around => children.flatMap fun (_, plan) => plan.here around
  { inside := inside
    parts := children.map fun (c, plan) => (c, plan.inside)
    here := fun around =>
      if n.kind.isTypeDeclaration then
        ⟨.type around.inBody, n, n, around.owner, none⟩ ::
          (typeParameters n (some n) none ++
            ((if n.kind == .recordDeclaration then recordComponents n else []) ++
              insideField below .body ⟨some n, none, false⟩))
      else if n.isAnonymousBody then
        ⟨.anonymousClass, n, n, around.owner, none⟩ :: inside ⟨some n, none, false⟩
      else if n.kind.isMethodDeclaration then
        ⟨.method, n, n, around.owner, none⟩ ::
          (typeParameters n around.owner (some n) ++
            (parameters below n ⟨around.owner, some n, true⟩ ++
              insideField below .body ⟨around.owner, some n, true⟩))
      else if n.kind.isFieldDeclaration then
        (below.filter fun (c, _) => c.field == some .declarator).flatMap fun (c, plan) =>
          named .field c around.owner none ++ plan.inside ⟨around.owner, none, true⟩
      else if n.kind == .enumConstant then
        named .field n around.owner none ++ inside ⟨around.owner, around.method, true⟩
      else if n.kind == .staticInitializer || n.isInitializerBlock then
        inside ⟨around.owner, none, true⟩
      else
        inMethod n around.method ++ inside around }

end Plan

namespace Node

/-- The sites at a node and below it. -/
def sites (n : Node) (around : Enclosure) : List Site :=
  (n.fold Plan.step).here around

/-- The sites below a node. -/
def sitesInside (n : Node) (around : Enclosure) : List Site :=
  (n.fold Plan.step).inside around

/-- The sites below the first node with a field. -/
def sitesOfField (n : Node) (f : Field) (around : Enclosure) : List Site :=
  match n.children.find? fun c => c.field == some f with
  | some c => c.sitesInside around
  | none => []

/-- The parameters of a method, and the sites in them. -/
def sitesOfParameters (n : Node) (around : Enclosure) : List Site :=
  match n.children.find? fun c => c.field == some .parameters with
  | some list => list.namedChildren.flatMap fun each =>
      (if each.kind.isMethodParameter then Plan.named .localVariable each none (some n) else []) ++
        each.sitesInside around
  | none => []

theorem filter_children_fold {α : Type _} (step : Node → List (Node × α) → α) (n : Node)
    (p : Node → Bool) :
    (n.children.map fun c => (c, c.fold step)).filter (fun each => p each.1) =
      (n.children.filter p).map fun c => (c, c.fold step) := by
  rw [List.filter_map]
  rfl

theorem find?_children_fold {α : Type _} (step : Node → List (Node × α) → α) (n : Node)
    (p : Node → Bool) :
    (n.children.map fun c => (c, c.fold step)).find? (fun each => p each.1) =
      (n.children.find? p).map fun c => (c, c.fold step) := by
  rw [List.find?_map]
  rfl

theorem sitesInside_eq (n : Node) (around : Enclosure) :
    n.sitesInside around = n.namedChildren.flatMap (·.sites around) := by
  rw [sitesInside, fold_eq]
  show ((n.children.map fun c => (c, c.fold Plan.step)).filter (·.1.isNamed)).flatMap _ = _
  rw [filter_children_fold, List.flatMap_map]
  rfl

theorem insideField_children (n : Node) (f : Field) (around : Enclosure) :
    Plan.insideField (n.children.map fun c => (c, c.fold Plan.step)) f around =
      n.sitesOfField f around := by
  rw [Plan.insideField, sitesOfField, find?_children_fold _ n fun c => c.field == some f]
  cases n.children.find? fun c => c.field == some f <;> rfl

theorem parameters_children (n : Node) (around : Enclosure) :
    Plan.parameters (n.children.map fun c => (c, c.fold Plan.step)) n around =
      n.sitesOfParameters around := by
  rw [Plan.parameters, sitesOfParameters,
    find?_children_fold _ n fun c => c.field == some .parameters]
  cases n.children.find? fun c => c.field == some .parameters with
  | none => rfl
  | some list =>
    show ((list.fold Plan.step).parts).flatMap _ = _
    rw [fold_eq]
    show (((list.children.map fun c => (c, c.fold Plan.step)).filter (·.1.isNamed)).map _).flatMap _ = _
    rw [filter_children_fold, List.map_map, List.flatMap_map]
    rfl

theorem sites_eq (n : Node) (around : Enclosure) :
    n.sites around =
      if n.kind.isTypeDeclaration then
        ⟨.type around.inBody, n, n, around.owner, none⟩ ::
          (Plan.typeParameters n (some n) none ++
            ((if n.kind == .recordDeclaration then Plan.recordComponents n else []) ++
              n.sitesOfField .body ⟨some n, none, false⟩))
      else if n.isAnonymousBody then
        ⟨.anonymousClass, n, n, around.owner, none⟩ :: n.sitesInside ⟨some n, none, false⟩
      else if n.kind.isMethodDeclaration then
        ⟨.method, n, n, around.owner, none⟩ ::
          (Plan.typeParameters n around.owner (some n) ++
            (n.sitesOfParameters ⟨around.owner, some n, true⟩ ++
              n.sitesOfField .body ⟨around.owner, some n, true⟩))
      else if n.kind.isFieldDeclaration then
        n.declarators.flatMap fun c =>
          Plan.named .field c around.owner none ++ c.sitesInside ⟨around.owner, none, true⟩
      else if n.kind == .enumConstant then
        Plan.named .field n around.owner none ++
          n.sitesInside ⟨around.owner, around.method, true⟩
      else if n.kind == .staticInitializer || n.isInitializerBlock then
        n.sitesInside ⟨around.owner, none, true⟩
      else
        Plan.inMethod n around.method ++ n.sitesInside around := by
  have inside : ∀ around, (Plan.step n (n.children.map fun c => (c, c.fold Plan.step))).inside around =
      n.sitesInside around := fun around => by rw [sitesInside, fold_eq]
  rw [sites, fold_eq, ← insideField_children, ← insideField_children, ← parameters_children,
    ← inside, ← inside, ← inside, ← inside, declarators, childrenByField]
  show (if _ then _ else _) = _
  rw [filter_children_fold _ n fun c => c.field == some .declarator, List.flatMap_map]
  rfl

end Node

/-! ## Trees with declarations in place -/

/-- Declarations that a node names. -/
def Kind.declaresName : Kind → Bool
  | .typeParameter | .enumConstant | .variableDeclarator | .formalParameter | .spreadParameter
  | .catchFormalParameter | .enhancedForStatement | .resource => true
  | k => k.isTypeDeclaration || k.isMethodDeclaration

namespace Node

/-- The node has the parts of a declaration where the grammar puts them. -/
structure HasParts (n : Node) : Prop where
  program : n.kind = .program → n.parent.isNone = true
  typeBody : n.kind.isTypeDeclaration = true → ∀ c ∈ n.childrenByField .body,
    c.kind.isTypeBody = true
  methodBody : n.kind.isMethodDeclaration = true → ∀ c ∈ n.childrenByField .body,
    c.kind.isBlock = true
  parameters : ∀ c ∈ n.childrenByField .parameters,
    c.kind ∈ [Kind.identifier, .formalParameters, .other "inferred_parameters"] ∧
      ∀ each ∈ c.namedChildren,
        each.kind.isTypeDeclaration = false ∧ each.kind.isMethodDeclaration = false
  declarators : n.kind.isFieldDeclaration = true → ∀ c ∈ n.declarators,
    c.kind = .variableDeclarator
  name : n.kind.declaresName = true → ∀ c ∈ n.childrenByField .name,
    c.kind ∈ [Kind.identifier, .other "underscore_pattern"]
  order : n.children.Pairwise fun a b => a.field = some .body → b.field ≠ some .parameters

instance (n : Node) : Decidable n.HasParts :=
  decidable_of_iff
    ((n.kind = .program → n.parent.isNone = true) ∧
      (n.kind.isTypeDeclaration = true → ∀ c ∈ n.childrenByField .body,
        c.kind.isTypeBody = true) ∧
      (n.kind.isMethodDeclaration = true → ∀ c ∈ n.childrenByField .body,
        c.kind.isBlock = true) ∧
      (∀ c ∈ n.childrenByField .parameters,
        c.kind ∈ [Kind.identifier, .formalParameters, .other "inferred_parameters"] ∧
          ∀ each ∈ c.namedChildren,
            each.kind.isTypeDeclaration = false ∧ each.kind.isMethodDeclaration = false) ∧
      (n.kind.isFieldDeclaration = true → ∀ c ∈ n.declarators, c.kind = .variableDeclarator) ∧
      (n.kind.declaresName = true → ∀ c ∈ n.childrenByField .name,
        c.kind ∈ [Kind.identifier, .other "underscore_pattern"]) ∧
      n.children.Pairwise fun a b => a.field = some .body → b.field ≠ some .parameters)
    ⟨fun ⟨h₁, h₂, h₃, h₄, h₅, h₆, h₇⟩ => ⟨h₁, h₂, h₃, h₄, h₅, h₆, h₇⟩, fun h =>
      ⟨h.program, h.typeBody, h.methodBody, h.parameters, h.declarators, h.name, h.order⟩⟩

/-- A node that declares a variable under its name. -/
def IsVariable (n : Node) : Prop :=
  n.kind ∈ [Kind.enumConstant, .formalParameter, .spreadParameter, .catchFormalParameter,
      .enhancedForStatement, .resource] ∨
    n.kind = .variableDeclarator ∧ ∃ up, n.parent = some up ∧
      (up.kind = .localVariableDeclaration ∨ up.kind.isFieldDeclaration = true)

/-- A node that declares a type, a type parameter or a method. -/
def DeclaresItself (n : Node) : Prop :=
  n.kind.isTypeDeclaration = true ∨ n.isAnonymousBody = true ∨ n.kind = .typeParameter ∨
    n.kind.isMethodDeclaration = true

/-- The kind of the binding that a declaration is of. -/
def declaredKind (n : Node) : BindingKind :=
  if n.kind.isTypeDeclaration || n.isAnonymousBody || n.kind == .typeParameter then .type
  else if n.kind.isMethodDeclaration then .method
  else .variable

theorem IsVariable.declaredKind {n : Node} (h : n.IsVariable) : n.declaredKind = .variable := by
  unfold Node.declaredKind isAnonymousBody
  rcases h with h | ⟨h, -⟩
  · simp only [List.mem_cons, List.not_mem_nil, or_false] at h
    rcases h with h | h | h | h | h | h <;>
      simp [h, Kind.isTypeDeclaration, Kind.isMethodDeclaration]
  · simp [h, Kind.isTypeDeclaration, Kind.isMethodDeclaration]

theorem declaredKind_of_isMethod {n : Node} (h : n.kind.isMethodDeclaration = true) :
    n.declaredKind = .method := by
  unfold declaredKind isAnonymousBody
  revert h
  cases n.kind <;> simp [Kind.isTypeDeclaration, Kind.isMethodDeclaration]

theorem declaredKind_of_identifier {n : Node} (h : n.kind = .identifier) :
    n.declaredKind = .variable := by
  simp [declaredKind, isAnonymousBody, h, Kind.isTypeDeclaration, Kind.isMethodDeclaration]

theorem IsVariable.kind_ne_identifier {n : Node} (h : n.IsVariable) : n.kind ≠ .identifier := by
  intro kind
  rcases h with h | ⟨h, -⟩
  · simp [kind] at h
  · simp [kind] at h

theorem IsVariable.declaresName {n : Node} (h : n.IsVariable) : n.kind.declaresName = true := by
  rcases h with h | ⟨h, -⟩
  · simp only [List.mem_cons, List.not_mem_nil, or_false] at h
    rcases h with h | h | h | h | h | h <;> simp [h, Kind.declaresName]
  · simp [h, Kind.declaresName]

theorem DeclaresItself.kind_ne_identifier {n : Node} (h : n.DeclaresItself) :
    n.kind ≠ .identifier := by
  intro kind
  simp [DeclaresItself, isAnonymousBody, kind, Kind.isTypeDeclaration, Kind.isMethodDeclaration] at h

/-- A fact holds of all nodes if it holds of a node as soon as it holds of all nodes below. -/
theorem induction_below {P : Node → Prop}
    (h : ∀ n, (∀ c ∈ n.children, ∀ m ∈ c.preorder, P m) → P n) (n : Node) : P n := by
  have all : ∀ m ∈ n.preorder, P m := by
    induction n using induction with
    | h n ih =>
      intro m hm
      rw [preorder_eq, List.mem_cons, List.mem_flatMap] at hm
      rcases hm with rfl | ⟨c, hc, hm⟩
      · exact h m ih
      · exact ih c hc m hm
  exact all n (mem_preorder_self n)

/-- A fact holds of all nodes if it holds of a node as soon as another one does inside of it and of
all nodes below, and this one holds inside of a node as soon as the first one holds of its children. -/
theorem induction_inside {Here Inside : Node → Prop}
    (inside : ∀ n, (∀ c ∈ n.children, Here c) → Inside n)
    (here : ∀ n, Inside n → (∀ c ∈ n.children, ∀ m ∈ c.preorder, Inside m) → Here n) (n : Node) :
    Here n := by
  induction n using induction_below with
  | h n ih =>
    refine here n (inside n fun c hc => ih c hc c (mem_preorder_self c)) fun c hc m hm => ?_
    exact inside m fun d hd => ih c hc d (mem_preorder_of_mem_children hm hd)

end Node

/-- The keys tell the nodes apart, and every node has its parts where the grammar puts them. -/
structure Tree.IsRegular (t : Tree) : Prop where
  distinct : (t.root.preorder.map Node.key).Nodup
  parts : ∀ n ∈ t.root.preorder, n.HasParts

instance (t : Tree) : Decidable t.IsRegular :=
  decidable_of_iff ((t.root.preorder.map Node.key).Nodup ∧ ∀ n ∈ t.root.preorder, n.HasParts)
    ⟨fun ⟨distinct, parts⟩ => ⟨distinct, parts⟩, fun h => ⟨h.distinct, h.parts⟩⟩

/-! ## What one node adds -/

namespace Node

variable {n m c : Node} {s : Site} {e e' : Enclosure}

/-- The node declares neither a type nor a method, so it leaves what encloses it as it is. -/
structure IsTransparent (n : Node) : Prop where
  notType : n.kind.isTypeDeclaration = false
  notAnonymous : n.isAnonymousBody = false
  notMethod : n.kind.isMethodDeclaration = false

/-- The sites that the first pass meets at a node itself: what the node declares, and what stands in
the header of the declaration. -/
inductive Brings (n : Node) (e : Enclosure) : Site → Prop where
  | type : n.kind.isTypeDeclaration = true → Brings n e ⟨.type e.inBody, n, n, e.owner, none⟩
  | anonymousClass : n.isAnonymousBody = true → Brings n e ⟨.anonymousClass, n, n, e.owner, none⟩
  | method : n.kind.isMethodDeclaration = true → Brings n e ⟨.method, n, n, e.owner, none⟩
  | typeParameter {s : Site} {owner method : Option Node} :
      s ∈ Plan.typeParameters n owner method → Brings n e s
  | recordComponent {s : Site} : n.kind = .recordDeclaration → s ∈ Plan.recordComponents n →
      Brings n e s
  | parameter {list each : Node} {s : Site} : n.kind.isMethodDeclaration = true →
      list ∈ n.childrenByField .parameters → each ∈ list.namedChildren →
      each.kind.isMethodParameter = true → s ∈ Plan.named .localVariable each none (some n) →
      Brings n e s
  | field {c : Node} {s : Site} : n.IsTransparent → n.kind.isFieldDeclaration = true →
      c ∈ n.declarators → s ∈ Plan.named .field c e.owner none → Brings n e s
  | constant {s : Site} : n.kind = .enumConstant → s ∈ Plan.named .field n e.owner none →
      Brings n e s
  | code {s : Site} : n.IsTransparent → s ∈ Plan.inMethod n e.method → Brings n e s

/-- The nodes whose inside the first pass goes through from a node, and what encloses them there. -/
inductive Opens (n : Node) (e : Enclosure) : Node → Enclosure → Prop where
  | typeBody {c : Node} : n.kind.isTypeDeclaration = true → c ∈ n.childrenByField .body →
      Opens n e c ⟨some n, none, false⟩
  | anonymousBody : n.isAnonymousBody = true → Opens n e n ⟨some n, none, false⟩
  | parameter {list each : Node} : n.kind.isMethodDeclaration = true →
      list ∈ n.childrenByField .parameters → each ∈ list.namedChildren →
      Opens n e each ⟨e.owner, some n, true⟩
  | methodBody {c : Node} : n.kind.isMethodDeclaration = true → c ∈ n.childrenByField .body →
      Opens n e c ⟨e.owner, some n, true⟩
  | declarator {c : Node} : n.IsTransparent → n.kind.isFieldDeclaration = true → c ∈ n.declarators →
      Opens n e c ⟨e.owner, none, true⟩
  | constant : n.IsTransparent → Opens n e n ⟨e.owner, e.method, true⟩
  | initializer : n.IsTransparent → n.kind = .staticInitializer ∨ n.isInitializerBlock = true →
      Opens n e n ⟨e.owner, none, true⟩
  | code : n.IsTransparent → Opens n e n e

theorem mem_sitesOfField {f : Field} (h : s ∈ n.sitesOfField f e) :
    ∃ c ∈ n.childrenByField f, s ∈ c.sitesInside e := by
  unfold sitesOfField at h
  split at h
  · next c found =>
    have below := List.mem_of_find?_eq_some found
    exact ⟨c, List.mem_filter.2 ⟨below, by simpa using List.find?_some found⟩, h⟩
  · cases h

/-- The parameter of a method, and what is declared in it. -/
theorem mem_parameter_cases {owner method : Option Node}
    (h : s ∈ (if n.kind.isMethodParameter then Plan.named .localVariable n owner method else []) ++
      n.sitesInside e) :
    n.kind.isMethodParameter = true ∧ s ∈ Plan.named .localVariable n owner method ∨
      s ∈ n.sitesInside e := by
  rcases List.mem_append.1 h with h | h
  · split at h
    · next isParameter => exact .inl ⟨isParameter, h⟩
    · cases h
  · exact .inr h

theorem mem_sitesOfParameters (h : s ∈ n.sitesOfParameters e) :
    ∃ list ∈ n.childrenByField .parameters, ∃ each ∈ list.namedChildren,
      each.kind.isMethodParameter = true ∧ s ∈ Plan.named .localVariable each none (some n) ∨
        s ∈ each.sitesInside e := by
  unfold sitesOfParameters at h
  split at h
  · next list found =>
    have below := List.mem_of_find?_eq_some found
    obtain ⟨each, heach, hs⟩ := List.mem_flatMap.1 h
    exact ⟨list, List.mem_filter.2 ⟨below, by simpa using List.find?_some found⟩, each, heach,
      mem_parameter_cases hs⟩
  · cases h

/-- A site is brought by the node itself, or stands inside a node that it opens. -/
theorem mem_sites_cases (h : s ∈ n.sites e) :
    n.Brings e s ∨ ∃ m e', n.Opens e m e' ∧ s ∈ m.sitesInside e' := by
  rw [sites_eq] at h
  split at h
  · next isType =>
    simp only [List.mem_cons, List.mem_append] at h
    rcases h with rfl | h | h | h
    · exact .inl (.type isType)
    · exact .inl (.typeParameter h)
    · split at h
      · next isRecord => exact .inl (.recordComponent (by simpa using isRecord) h)
      · cases h
    · obtain ⟨c, hc, hs⟩ := mem_sitesOfField h
      exact .inr ⟨c, _, .typeBody isType hc, hs⟩
  next notType =>
  split at h
  · next isAnonymous =>
    rcases List.mem_cons.1 h with rfl | h
    · exact .inl (.anonymousClass isAnonymous)
    · exact .inr ⟨n, _, .anonymousBody isAnonymous, h⟩
  next notAnonymous =>
  split at h
  · next isMethod =>
    simp only [List.mem_cons, List.mem_append] at h
    rcases h with rfl | h | h | h
    · exact .inl (.method isMethod)
    · exact .inl (.typeParameter h)
    · obtain ⟨list, hlist, each, heach, ⟨isParameter, hs⟩ | hs⟩ := mem_sitesOfParameters h
      · exact .inl (.parameter isMethod hlist heach isParameter hs)
      · exact .inr ⟨each, _, .parameter isMethod hlist heach, hs⟩
    · obtain ⟨c, hc, hs⟩ := mem_sitesOfField h
      exact .inr ⟨c, _, .methodBody isMethod hc, hs⟩
  next notMethod =>
  have transparent : n.IsTransparent :=
    ⟨by simpa using notType, by simpa using notAnonymous, by simpa using notMethod⟩
  split at h
  · next isField =>
    obtain ⟨c, hc, hs⟩ := List.mem_flatMap.1 h
    rcases List.mem_append.1 hs with hs | hs
    · exact .inl (.field transparent isField hc hs)
    · exact .inr ⟨c, _, .declarator transparent isField hc, hs⟩
  split at h
  · next isConstant =>
    rcases List.mem_append.1 h with h | h
    · exact .inl (.constant (by simpa using isConstant) h)
    · exact .inr ⟨n, _, .constant transparent, h⟩
  split at h
  · next isInitializer =>
    exact .inr ⟨n, _, .initializer transparent (by simpa using isInitializer), h⟩
  · rcases List.mem_append.1 h with h | h
    · exact .inl (.code transparent h)
    · exact .inr ⟨n, _, .code transparent, h⟩

/-- A node that is opened is the node itself, or stands below it. -/
theorem Opens.eq_or_below (opens : n.Opens e m e') : m = n ∨ ∃ c ∈ n.children, m ∈ c.preorder := by
  cases opens with
  | typeBody _ hc => exact .inr ⟨m, (List.mem_filter.1 hc).1, mem_preorder_self m⟩
  | anonymousBody => exact .inl rfl
  | parameter _ hlist heach =>
    exact .inr ⟨_, (List.mem_filter.1 hlist).1,
      mem_preorder_of_child (List.mem_filter.1 heach).1 (mem_preorder_self m)⟩
  | methodBody _ hc => exact .inr ⟨m, (List.mem_filter.1 hc).1, mem_preorder_self m⟩
  | declarator _ _ hc => exact .inr ⟨m, (List.mem_filter.1 hc).1, mem_preorder_self m⟩
  | constant | initializer | code => exact .inl rfl

theorem Opens.mem_preorder (opens : n.Opens e m e') : m ∈ n.preorder := by
  rcases opens.eq_or_below with rfl | ⟨c, hc, hm⟩
  · exact mem_preorder_self m
  · exact mem_preorder_of_child hc hm

/-- A fact holds of all sites at a node if it holds of those that a node brings, and a node that
opens another one takes it over from the nodes directly below that one. -/
theorem sites_induction {P : Node → Enclosure → Site → Prop}
    (brings : ∀ {n e s}, n.Brings e s → P n e s)
    (opens : ∀ {n e m e' c s}, n.Opens e m e' → c ∈ m.children → P c e' s → P n e s)
    (h : s ∈ n.sites e) : P n e s := by
  induction n using induction_below generalizing e with
  | h n ih =>
    rcases mem_sites_cases h with brought | ⟨m, e', opened, hs⟩
    · exact brings brought
    · rw [sitesInside_eq] at hs
      obtain ⟨c, hc, hs⟩ := List.mem_flatMap.1 hs
      have hc := (List.mem_filter.1 hc).1
      rcases opened.eq_or_below with rfl | ⟨d, hd, hm⟩
      · exact opens opened hc (ih c hc c (mem_preorder_self c) hs)
      · exact opens opened hc (ih d hd c (mem_preorder_of_mem_children hm hc) hs)

/-! ### The roles of what stands in headers and in code -/

theorem of_mem_named {role : Role} {owner method : Option Node}
    (h : s ∈ Plan.named role n owner method) : s.role = role ∧ s.node = n := by
  obtain ⟨place, -, rfl⟩ := List.mem_map.1 h
  exact ⟨rfl, rfl⟩

/-- The type parameters of a declaration stand in a list below it. -/
theorem mem_typeParameters_cases {owner method : Option Node}
    (h : s ∈ Plan.typeParameters n owner method) :
    ∃ list ∈ n.children, list.kind = .typeParameters ∧
      ∃ each ∈ list.children, each.kind = .typeParameter ∧
        s = ⟨.typeParameter, each, each, owner, method⟩ := by
  unfold Plan.typeParameters at h
  split at h
  · next list found =>
    obtain ⟨each, heach, rfl⟩ := List.mem_map.1 h
    obtain ⟨below, kind⟩ := mem_children_of_childOfKind found
    obtain ⟨member, isParameter⟩ := List.mem_filter.1 heach
    exact ⟨list, below, kind, each, (List.mem_filter.1 member).1, by simpa using isParameter, rfl⟩
  · cases h

/-- The fields in the header of a record stand in its list of parameters. -/
theorem mem_recordComponents_cases (h : s ∈ Plan.recordComponents n) :
    ∃ list ∈ n.children, list.field = some .parameters ∧
      ∃ each ∈ list.children, each.kind = .formalParameter ∧
        s ∈ Plan.named .field each (some n) none := by
  unfold Plan.recordComponents at h
  split at h
  · next list found =>
    obtain ⟨each, heach, hs⟩ := List.mem_flatMap.1 h
    obtain ⟨below, field⟩ := mem_children_of_childByField found
    obtain ⟨member, isParameter⟩ := List.mem_filter.1 heach
    exact ⟨list, below, field, each, (List.mem_filter.1 member).1, by simpa using isParameter, hs⟩
  · cases h

/-- In a method, a node brings its own variable, or the names alone of a lambda expression. -/
theorem mem_inMethod_cases {method : Option Node} (h : s ∈ Plan.inMethod n method) :
    n.IsVariable ∧ s ∈ Plan.named .localVariable n none method ∨
      n.kind = .lambdaExpression ∧ ∃ name ∈ Draft.inferredParameters n,
        s = ⟨.localVariable, name, name, none, method⟩ := by
  unfold Plan.inMethod at h
  split at h
  · next kind =>
    split at h
    · next above =>
      obtain ⟨up, hup, isLocal⟩ := (Option.any_eq_true _ _).1 above
      exact .inl ⟨.inr ⟨kind, up, hup, .inl (by simpa using isLocal)⟩, h⟩
    · cases h
  iterate 3
    · next kind => exact .inl ⟨.inl (by simp [kind]), h⟩
  · next kind =>
    split at h
    · exact .inl ⟨.inl (by simp [kind]), h⟩
    · cases h
  · next kind =>
    obtain ⟨name, hname, rfl⟩ := List.mem_map.1 h
    exact .inr ⟨kind, name, hname, rfl⟩
  · cases h

theorem role_of_mem_typeParameters {owner method : Option Node}
    (h : s ∈ Plan.typeParameters n owner method) : s.role = .typeParameter := by
  obtain ⟨-, -, -, each, -, -, rfl⟩ := mem_typeParameters_cases h
  rfl

theorem role_of_mem_recordComponents (h : s ∈ Plan.recordComponents n) : s.role = .field := by
  obtain ⟨-, -, -, each, -, -, hs⟩ := mem_recordComponents_cases h
  exact (of_mem_named hs).1

theorem role_of_mem_inMethod {method : Option Node} (h : s ∈ Plan.inMethod n method) :
    s.role = .localVariable := by
  rcases mem_inMethod_cases h with ⟨-, hs⟩ | ⟨-, name, -, rfl⟩
  · exact (of_mem_named hs).1
  · rfl

end Node

/-! ## Where sites stand -/

/-- The site is of a node in the tree of a node, of the kind that the node declares, and filed under
the node itself or its name. -/
structure Site.StandsIn (s : Site) (n : Node) : Prop where
  member : s.node ∈ n.preorder
  kind : s.role.kind = s.node.declaredKind
  filed : s.place = s.node ∧ s.node.DeclaresItself ∨
    s.node.IsVariable ∧ s.node.nameNode = some s.place ∨
    s.place = s.node ∧ ∃ l ∈ n.preorder, l.kind = .lambdaExpression ∧
      s.node ∈ Draft.inferredParameters l

namespace Site.StandsIn

variable {n c : Node} {s : Site}

theorem of_mem_preorder (hc : c ∈ n.preorder) (h : s.StandsIn c) : s.StandsIn n where
  member := Node.mem_preorder_trans hc h.member
  kind := h.kind
  filed := h.filed.imp_right fun h => h.imp_right fun ⟨same, l, hl, kind⟩ =>
    ⟨same, l, Node.mem_preorder_trans hc hl, kind⟩

theorem of_child (hc : c ∈ n.children) (h : s.StandsIn c) : s.StandsIn n :=
  h.of_mem_preorder (Node.mem_preorder_of_child hc (Node.mem_preorder_self c))

theorem itself {role : Role} {owner method : Option Node} (declares : n.DeclaresItself)
    (kind : role.kind = n.declaredKind) : StandsIn ⟨role, n, n, owner, method⟩ n where
  member := Node.mem_preorder_self n
  kind := kind
  filed := .inl ⟨rfl, declares⟩

theorem of_mem_named {role : Role} {owner method : Option Node} (isVariable : n.IsVariable)
    (kind : role.kind = .variable) (h : s ∈ Plan.named role n owner method) : s.StandsIn n := by
  obtain ⟨place, hplace, rfl⟩ := List.mem_map.1 h
  exact ⟨Node.mem_preorder_self n, kind.trans isVariable.declaredKind.symm,
    .inr (.inl ⟨isVariable, Option.mem_toList.1 hplace⟩)⟩

/-- A method is filed under its own node. -/
theorem place_eq_of_method (h : s.StandsIn n) (role : s.role = .method) : s.place = s.node := by
  have kind : s.node.declaredKind = .method := by rw [← h.kind, role]; rfl
  rcases h.filed with ⟨here, -⟩ | ⟨isVariable, -⟩ | ⟨here, -⟩
  · exact here
  · rw [isVariable.declaredKind] at kind
    cases kind
  · exact here

end Site.StandsIn

namespace Node

variable {n : Node} {s : Site} {around : Enclosure}

/-- A name alone among the parameters of a lambda expression is the list or stands in it. -/
theorem mem_inferredParameters {name : Node} (h : name ∈ Draft.inferredParameters n) :
    name.kind = .identifier ∧ ∃ list ∈ n.children, list.field = some .parameters ∧
      (name = list ∨ name ∈ list.children) := by
  unfold Draft.inferredParameters at h
  split at h
  · cases h
  · next list found =>
    obtain ⟨below, field⟩ := mem_children_of_childByField found
    split at h
    · next kind =>
      rw [List.mem_singleton.1 h]
      exact ⟨by simpa using kind, list, below, field, .inl rfl⟩
    · obtain ⟨member, kind⟩ := List.mem_filter.1 h
      exact ⟨by simpa using kind, list, below, field, .inr (List.mem_filter.1 member).1⟩

theorem mem_preorder_of_mem_inferredParameters {name : Node}
    (h : name ∈ Draft.inferredParameters n) : name ∈ n.preorder := by
  obtain ⟨-, list, below, -, rfl | inner⟩ := mem_inferredParameters h
  · exact mem_preorder_of_child below (mem_preorder_self name)
  · exact mem_preorder_of_child below (mem_preorder_of_mem_children (mem_preorder_self list) inner)

/-- A type parameter in the list of a declaration stands below that list. -/
theorem standsIn_of_mem_typeParameters {owner method : Option Node}
    (h : s ∈ Plan.typeParameters n owner method) :
    ∃ c ∈ n.children, c.kind = .typeParameters ∧ s.StandsIn c := by
  obtain ⟨list, below, kind, each, inner, isParameter, rfl⟩ := mem_typeParameters_cases h
  exact ⟨list, below, kind, .of_child inner
    (.itself (.inr (.inr (.inl isParameter))) (by simp [declaredKind, isParameter, Role.kind]))⟩

theorem standsIn_of_mem_recordComponents (h : s ∈ Plan.recordComponents n) :
    ∃ c ∈ n.children, c.field = some .parameters ∧ s.StandsIn c := by
  obtain ⟨list, below, field, each, inner, kind, hs⟩ := mem_recordComponents_cases h
  exact ⟨list, below, field, .of_child inner (.of_mem_named (.inl (by simp [kind])) rfl hs)⟩

theorem standsIn_of_mem_inMethod {method : Option Node} (h : s ∈ Plan.inMethod n method) :
    s.StandsIn n := by
  rcases mem_inMethod_cases h with ⟨isVariable, hs⟩ | ⟨kind, name, hname, rfl⟩
  · exact .of_mem_named isVariable rfl hs
  · refine ⟨?_, ?_, .inr (.inr ⟨rfl, n, mem_preorder_self n, kind, hname⟩)⟩
    · exact mem_preorder_of_mem_inferredParameters hname
    · exact (declaredKind_of_identifier (mem_inferredParameters hname).1).symm

theorem isVariable_of_isMethodParameter (isParameter : n.kind.isMethodParameter = true) :
    n.IsVariable := by
  have kind : n.kind = .formalParameter ∨ n.kind = .spreadParameter := by
    revert isParameter
    cases n.kind <;> simp [Kind.isMethodParameter]
  exact .inl (by rcases kind with kind | kind <;> simp [kind])

theorem Brings.standsIn {e : Enclosure} (parts : n.HasParts) (brought : n.Brings e s) :
    s.StandsIn n := by
  cases brought with
  | type isType => exact .itself (.inl isType) (by simp [declaredKind, isType, Role.kind])
  | anonymousClass isAnonymous =>
    exact .itself (.inr (.inl isAnonymous)) (by simp [declaredKind, isAnonymous, Role.kind])
  | method isMethod =>
    exact .itself (.inr (.inr (.inr isMethod))) (declaredKind_of_isMethod isMethod).symm
  | typeParameter h =>
    obtain ⟨c, hc, -, stand⟩ := standsIn_of_mem_typeParameters h
    exact .of_child hc stand
  | recordComponent _ h =>
    obtain ⟨c, hc, -, stand⟩ := standsIn_of_mem_recordComponents h
    exact .of_child hc stand
  | parameter _ hlist heach isParameter h =>
    exact .of_child (List.mem_filter.1 hlist).1 (.of_child (List.mem_filter.1 heach).1
      (.of_mem_named (isVariable_of_isMethodParameter isParameter) rfl h))
  | field _ isField hc h =>
    have below := (List.mem_filter.1 hc).1
    exact .of_child below (.of_mem_named (.inr ⟨parts.declarators isField _ hc, n,
      parent_of_mem_children below, .inr isField⟩) rfl h)
  | constant isConstant h => exact .of_mem_named (.inl (by simp [isConstant])) rfl h
  | code _ h => exact standsIn_of_mem_inMethod h

/-- A site at a node or below it stands in the tree of the node. -/
theorem standsIn_of_mem_sites (shape : ∀ m ∈ n.preorder, m.HasParts) (h : s ∈ n.sites around) :
    s.StandsIn n := by
  refine sites_induction (P := fun n _ s => (∀ m ∈ n.preorder, m.HasParts) → s.StandsIn n)
    ?_ ?_ h shape
  · intro n e s brought shape
    exact brought.standsIn (shape n (mem_preorder_self n))
  · intro n e m e' c s opens hc ih shape
    have below := mem_preorder_of_mem_children opens.mem_preorder hc
    exact (ih fun x hx => shape x (mem_preorder_trans below hx)).of_mem_preorder below

end Node

end JavaScope
