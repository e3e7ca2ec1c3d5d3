import JavaScope.Proofs.Environment.Kinds
import JavaScope.Proofs.Scope.Blocks
import JavaScope.Proofs.Scope.Hiding

/-!
# Local types and their blocks

A walk over a member that is asked for types offers a local type from the position after its end on,
as long as the position is in the block of the type. Right at the end of the type the position is no
longer in it, but the type has not ended before the position either, and it is not offered.
-/

namespace JavaScope

/-! ## The binding of a local type -/

/-- A declaration of a type that is a statement of a block, in the tree of an environment that was
built, with the binding that it declares. -/
structure IsLocalType (c : Context) (e : Environment) (block type : Node) (b : BindingId) : Prop where
  built : Environment.build c = .ok e
  java : c.unit.tree.IsJava
  shape : c.document.tree.HasLeafNames
  member : block ∈ c.unit.tree.root.preorder
  kind : block.kind = .block ∨ block.kind = .constructorBody
  statement : type ∈ block.namedChildren
  isType : type.kind.isTypeDeclaration = true
  binding : e.bindingOf type = some b

namespace IsLocalType

variable {c : Context} {e : Environment} {block type n : Node} {b : BindingId}
  (isLocal : IsLocalType c e block type b)

include isLocal

theorem child : type ∈ block.children :=
  (List.mem_filter.1 isLocal.statement).1

theorem named : type.isNamed = true :=
  (List.mem_filter.1 isLocal.statement).2

theorem mem : type ∈ c.unit.tree.root.preorder :=
  Node.mem_preorder_of_mem_children isLocal.member isLocal.child

/-- The binding is a type, and is filed under the declaration. -/
theorem declaredAt : e.declaredAt type = some b ∧ b.kind = .type :=
  Environment.declaredAt_of_declaresType isLocal.built isLocal.shape isLocal.mem
    (Bool.or_eq_true_iff.2 (.inl isLocal.isType)) isLocal.binding

/-- The binding is filed under no other node. -/
theorem eq_of_declaredAt (hn : n ∈ c.unit.tree.root.preorder) (declared : e.declaredAt n = some b) :
    n = type := by
  have sound := (Environment.build_ready isLocal.built).sound
  have key := sound.key_unique (Environment.mem_of_declaredAt declared)
    (Environment.mem_of_declaredAt isLocal.declaredAt.1)
  exact isLocal.java.eq_of_key_eq hn isLocal.mem key

/-- No other declaration of a variable or a type leads to the binding. -/
theorem node_ne (hn : n ∈ c.unit.tree.root.preorder) (other : n ≠ type)
    (declares : n.kind.isCodeVariable = true ∨ n.kind.declaresType = true) :
    e.bindingOf n ≠ some b := by
  intro leads
  rcases declares with isVariable | isType
  · obtain ⟨-, -, -, kind⟩ :=
      Environment.declaredAt_of_isCodeVariable isLocal.built isLocal.shape hn isVariable leads
    rw [isLocal.declaredAt.2] at kind
    cases kind
  · exact other (isLocal.eq_of_declaredAt hn
      (Environment.declaredAt_of_declaresType isLocal.built isLocal.shape hn isType leads).1)

/-- No identifier below another node leads to the binding. -/
theorem name_ne {up : Node} (hup : up ∈ c.unit.tree.root.preorder) (other : up ≠ type)
    (below : n ∈ up.children) (isName : n.kind = .identifier) : e.bindingOf n ≠ some b := by
  intro leads
  have hn := Node.mem_preorder_of_mem_children hup below
  rcases Environment.bindingOf_cases leads with here | ⟨name, named, -⟩ | ⟨up', name, above, -, -, there⟩
  · rcases Environment.kind_of_declaredAt isLocal.built isLocal.shape hn here with ⟨itself, -⟩ | ⟨-, kind⟩
    · exact absurd isName itself.kind_ne_identifier
    · rw [isLocal.declaredAt.2] at kind
      cases kind
  · rw [Node.nameNode_of_leaf (isLocal.shape.leaves n hn (by simp [isName]))] at named
    cases named
  · rw [Node.parent_of_mem_children below] at above
    cases above
    exact other (isLocal.eq_of_declaredAt hup there)

theorem leadsAlone : LeadsAlone c e block type b where
  java := isLocal.java
  member := isLocal.member
  child := isLocal.child
  active := by
    rintro (token | header | annotation)
    · rw [(isLocal.java.fits _ isLocal.member).isNamed isLocal.child] at token
      cases token
    · rcases isLocal.kind with kind | kind <;> rw [kind] at header <;> cases header
    · rcases isLocal.kind with kind | kind <;> rw [kind] at annotation <;> cases annotation
  plain := by rcases isLocal.kind with kind | kind <;> rw [kind] <;> nofun
  node_ne _ hn other declares := isLocal.node_ne hn other declares
  name_ne _ hup other _ below isName := isLocal.name_ne hup other below isName
  constant_ne _ _ _ _ _ := by
    rintro rfl
    cases isLocal.declaredAt.2

end IsLocalType

namespace LocalWalk

/-! ## The walk in the block -/

/-- The walk at the declaration of a type. -/
theorem level_of_declaresType {σ : Type} [Request σ] {typeOf : Typing} {p : ScopePoint} {n : Node}
    (isType : n.kind.isTypeDeclaration = true) : level (σ := σ) typeOf p n =
      if p.flags.types && p.endsBefore n then SearchM.offer (p.bindingOf n)
      else if p.isInside n then n.children.anyM (run typeOf p) else return false := by
  unfold level
  revert isType
  cases n.kind <;> simp [Kind.isTypeDeclaration]

/-- A walk that is asked for types, at which a local type is watched from its end on. -/
structure WatchesType (typeOf : Typing) (p : ScopePoint) (c : Context) (e₀ : Environment)
    (body block type : Node) (b : BindingId) : Prop extends
    Watch typeOf p c e₀ body block type b where
  isLocal : IsLocalType c e₀ block type b
  types : p.flags.types = true
  ordered : type.start ≤ type.stop
  ended : (p.unit.charRange type).2 ≤ p.position
  inside : p.isInside block = true

namespace WatchesType

variable {typeOf : Typing} {p : ScopePoint} {c : Context} {e₀ : Environment}
  {body block type : Node} {b : BindingId}
  (watch : WatchesType typeOf p c e₀ body block type b)

include watch

/-- A type that starts late has not ended before the position. -/
theorem late_offers (late : p.startsBefore type = false) :
    (if p.endsBefore type then 1 else 0) = 0 := by
  have along := p.unit.charRange_ordered watch.ordered
  refine if_neg fun ended => ?_
  have start : p.unit.charStart type = (p.unit.charRange type).1 := rfl
  simp only [ScopePoint.startsBefore, start, decide_eq_false_iff_not] at late
  simp only [ScopePoint.endsBefore, decide_eq_true_eq] at ended
  omega

/-- Here the binding is offered, if the type has ended before the position. -/
theorem offers_type : watch.Offers (if p.endsBefore type then 1 else 0) type := by
  have outside : p.isInside type = false := by
    have ended := watch.ended
    simp only [ScopePoint.isInside, Bool.and_eq_false_iff, decide_eq_false_iff_not]
    omega
  rw [Watch.Offers, run_eq_level typeOf p type watch.isLocal.named,
    level_of_declaresType watch.isLocal.isType, watch.types, outside]
  cases ended : p.endsBefore type with
  | true =>
    have offered : watch.Sees _ (SearchM.offer (p.bindingOf type)) := .offer (p.bindingOf type)
    rw [watch.bindings, if_pos watch.isLocal.binding, ← watch.bindings] at offered
    exact offered
  | false => exact .pure

/-- The block hands on the binding. -/
theorem offers_block (hb : block ∈ body.preorder) :
    watch.Offers (if p.endsBefore type then 1 else 0) block := by
  have named := (watch.java.fits _ watch.member).isNamed watch.child
  have passable : block.kind.isBarrier = false ∧ block.kind ≠ .forStatement ∧
      isWalkedBackwards block.kind = true ∧ block.mayHoldCode type = true := by
    unfold Node.mayHoldCode
    rcases watch.isLocal.kind with kind | kind <;> rw [kind] <;> exact ⟨rfl, nofun, rfl, rfl⟩
  obtain ⟨barrier, loop, isWalked, code⟩ := passable
  have step : StepsTo typeOf p (watch.Sees 0) (watch.Sees (if p.endsBefore type then 1 else 0))
      block type :=
    { fits := watch.java.fits _ watch.member
      nodup := watch.java.nodup_children watch.member
      leads := ⟨watch.child, barrier, fun kind => absurd kind loop⟩
      code := by
        refine ⟨?_, code⟩
        have isType := watch.isLocal.isType
        rintro (token | header | annotation)
        · rw [watch.isLocal.named] at token
          cases token
        · revert isType header
          cases type.kind <;> simp [Kind.isTypeDeclaration, Kind.isHeader]
        · revert isType annotation
          cases type.kind <;> simp [Kind.isTypeDeclaration, Kind.isAnnotation]
      carried := watch.offers_type
      beside := by
        intro d below other
        apply watch.offers_zero (Node.mem_preorder_of_mem_children hb below)
        intro hv
        exact other (Node.eq_of_mem_preorder below watch.child hv (Node.mem_preorder_self type))
      late := by
        intro _ late a ha
        rw [watch.late_offers late]
        exact ha }
  have walked := step.backwards_named (Records.carries _) isWalked
  rw [Watch.Offers, run_eq_level typeOf p block named]
  unfold level
  rcases watch.isLocal.kind with kind | kind <;> rw [kind] <;> simp only [watch.inside, if_true] <;>
    exact walked

end WatchesType

/-! ## The walk over a member -/

/-- In an error-free tree, the walk over a member that is asked for types offers a local type once if
the type has ended before a position in its block, and not at all right at the end of the type. The
block is reached without type bodies, annotations and labels, stands in no list of parameters, and no
`for` statement is entered by its condition or update. The walk fails only if it is asked for variables
as well, where the type of an expression that a `switch` is on is not told, for a label that holds the
position. -/
theorem run_offers_type_once {c : Context} {e₀ e : Environment} {body block type : Node}
    {b : BindingId} (built : Environment.build c = .ok e₀) (grown : e₀.Grows e)
    (java : c.unit.tree.IsJava) (shape : c.document.tree.HasLeafNames)
    (within : body ∈ c.unit.tree.root.preorder)
    (member : body.kind.isBodyDeclaration = true ∨ body.isInitializerBlock = true)
    (path : body.Reaches block)
    (lists : ∀ list ∈ body.preorder, list.field = some .parameters → block ∉ list.preorder)
    (kind : block.kind = .block ∨ block.kind = .constructorBody) (statement : type ∈ block.namedChildren)
    (isType : type.kind.isTypeDeclaration = true) (ordered : type.start ≤ type.stop)
    (binding : e.bindingOf type = some b) (position : Nat) {flags : Flags} (types : flags.types = true)
    (ended : (e.context.unit.charRange type).2 ≤ position)
    (inside : (e.point position flags).isInside block = true) :
    let p := e.point position flags
    let times := if p.endsBefore type then 1 else 0
    match outcome (run Scope.expressionType p body) ⟨e, Recorder.empty⟩ with
    | (.ok stopped, ⟨_, r⟩) => stopped = false ∧ r.times b = times
    | (.error f, ⟨_, r⟩) =>
      flags.vars = true ∧ LabelFails Scope.expressionType p e₀ body f ∧ r.times b ≤ times := by
  intro p times
  have ready := Environment.build_ready built
  have isLocal : IsLocalType c e₀ block type b :=
    { built := built
      java := java
      shape := shape
      member := Node.mem_preorder_trans within path.mem_preorder
      kind := kind
      statement := statement
      isType := isType
      binding := by rw [← grown.bindingOf]; exact binding }
  have watch : WatchesType Scope.expressionType p c e₀ body block type b :=
    { toLeadsAlone := isLocal.leadsAlone
      keeps := Scope.keeps_expressionType
      unit := by
        show e.context.unit = c.unit
        rw [grown.context, ready.sound.context]
      bindings := grown.bindingOf
      within := within
      enters := fun list hlist field below => absurd below (lists list hlist field)
      isLocal := isLocal
      types := types
      ordered := ordered
      ended := ended
      inside := inside }
  have plain : isList block.kind = false := by rcases kind with kind | kind <;> rw [kind] <;> rfl
  have held : p.isInside block = false → times = 0 := fun outside => by
    rw [watch.inside] at outside
    cases outside
  have offers := (watch.offers_path path (.refl block) (Node.mem_preorder_self body)
    (body_kind member).2.2 plain watch.late_offers held (watch.offers_block path.mem_preorder)).1
  obtain ⟨answer, e', r, ran, -, ends⟩ := offers e .empty grown
  rw [ran]
  cases answer with
  | ok stopped => simpa [EndsAfter] using ends
  | error f =>
    obtain ⟨⟨vars, fails⟩, few⟩ := ends
    exact ⟨vars, fails, by simpa using few⟩

/-! ## A name right after a local type -/

open Scope (firstNode)

/-- `class A { void m() { class B { }B b; } }` -/
def nameAfterType : Context :=
  .ofFile "class A \x7b void m() \x7b class B \x7b \x7dB b; \x7d \x7d" <|
    .named .program none 0 40 [
      .named .classDeclaration none 0 40 [
        .token "class" 0, .named .identifier (some .name) 6 7 [],
        .named .classBody (some .body) 8 40 [
          .token "\x7b" 8,
          .named .methodDeclaration none 10 38 [
            .named .voidType (some .type) 10 14 [], .named .identifier (some .name) 15 16 [],
            .named .formalParameters (some .parameters) 16 18 [.token "(" 16, .token ")" 17],
            .named .block (some .body) 19 38 [
              .token "\x7b" 19,
              .named .classDeclaration none 21 32 [
                .token "class" 21, .named .identifier (some .name) 27 28 [],
                .named .classBody (some .body) 29 32 [.token "\x7b" 29, .token "\x7d" 31]],
              .named .localVariableDeclaration none 32 36 [
                .named .typeIdentifier (some .type) 32 33 [],
                .named .variableDeclarator (some .declarator) 34 35 [
                  .named .identifier (some .name) 34 35 []],
                .token ";" 35],
              .token "\x7d" 37]],
          .token "\x7d" 39]]]

/-- The local type in the method. -/
def typeInMethod : Node :=
  ((firstNode nameAfterType .block).childOfKind .classDeclaration).getD nameAfterType.root

theorem typeInMethod_statement : typeInMethod ∈ (firstNode nameAfterType .block).namedChildren :=
  List.mem_of_getElem? (i := 0) rfl

theorem nameAfterType_shape : nameAfterType.unit.tree.IsJava ∧
    nameAfterType.document.tree.HasLeafNames := by
  constructor <;> decide

theorem nameAfterType_path :
    (firstNode nameAfterType .methodDeclaration).Reaches (firstNode nameAfterType .block) :=
  .step ⟨List.mem_of_getElem? (i := 3) rfl, by decide, by decide⟩ (.refl _)

set_option maxRecDepth 100000 in
theorem nameAfterType_computed :
    (match Environment.build nameAfterType with
    | .error _ => none
    | .ok e =>
      let body := firstNode nameAfterType .methodDeclaration
      let block := firstNode nameAfterType .block
      match outcome (run Scope.expressionType (e.point 32 .onlyTypes) body) ⟨e, Recorder.empty⟩ with
      | (.error _, _) => none
      | (.ok _, ⟨_, r⟩) => some (r.offered, e.bindingOf typeInMethod,
          (e.context.unit.charRange typeInMethod).2,
          (e.point 32 .onlyTypes).isInside block, (e.point 34 .onlyTypes).isInside block)) =
      some ([], some (.type ⟨1⟩), 32, true, true) := by
  decide +kernel

theorem run_offers_type_once_nameAfterType :
    ∃ e, Environment.build nameAfterType = .ok e ∧ nameAfterType.unit.tree.IsJava ∧
      nameAfterType.document.tree.HasLeafNames ∧
      let body := firstNode nameAfterType .methodDeclaration
      let block := firstNode nameAfterType .block
      let p := e.point 34 .onlyTypes
      let times := if p.endsBefore typeInMethod then 1 else 0
      body ∈ nameAfterType.unit.tree.root.preorder ∧ body.kind.isBodyDeclaration = true ∧
        body.Reaches block ∧
        (∀ list ∈ body.preorder, list.field = some .parameters → block ∉ list.preorder) ∧
        block.kind = .block ∧ typeInMethod ∈ block.namedChildren ∧
        typeInMethod.kind.isTypeDeclaration = true ∧ typeInMethod.start ≤ typeInMethod.stop ∧
        e.bindingOf typeInMethod = some (.type ⟨1⟩) ∧
        (e.context.unit.charRange typeInMethod).2 ≤ 34 ∧ p.isInside block = true ∧
        match outcome (run Scope.expressionType p body) ⟨e, Recorder.empty⟩ with
        | (.ok stopped, ⟨_, r⟩) => stopped = false ∧ r.times (.type ⟨1⟩) = times
        | (.error f, ⟨_, r⟩) => Flags.onlyTypes.vars = true ∧
            LabelFails Scope.expressionType p e body f ∧ r.times (.type ⟨1⟩) ≤ times := by
  have computed := nameAfterType_computed
  split at computed
  · cases computed
  · next e built =>
    dsimp only at computed
    split at computed
    · cases computed
    · next stopped e' r run =>
      simp only [Option.some.injEq, Prod.mk.injEq] at computed
      obtain ⟨-, binding, stop, -, inside⟩ := computed
      obtain ⟨java, shape⟩ := nameAfterType_shape
      have within : firstNode nameAfterType .methodDeclaration ∈
          nameAfterType.unit.tree.root.preorder :=
        List.mem_of_find?_eq_some (p := (·.kind == .methodDeclaration)) rfl
      have member : (firstNode nameAfterType .methodDeclaration).kind.isBodyDeclaration = true := by
        decide
      have kind : (firstNode nameAfterType .block).kind = .block := by decide
      have lists : ∀ list ∈ (firstNode nameAfterType .methodDeclaration).preorder,
          list.field = some .parameters → firstNode nameAfterType .block ∉ list.preorder := by
        have none : ∀ list ∈ (firstNode nameAfterType .methodDeclaration).preorder,
            list.field = some .parameters → ∀ m ∈ list.preorder, m.kind ≠ .block := by decide
        exact fun list hlist field below => none list hlist field _ below kind
      have isType : typeInMethod.kind.isTypeDeclaration = true := by decide
      have ordered : typeInMethod.start ≤ typeInMethod.stop := by decide
      have ended : (e.context.unit.charRange typeInMethod).2 ≤ 34 := by
        rw [stop]
        decide
      exact ⟨e, built, java, shape, within, member, nameAfterType_path, lists, kind,
        typeInMethod_statement, isType, ordered, binding, ended, inside,
        run_offers_type_once built (.refl e) java shape within (.inl member) nameAfterType_path lists
          (.inl kind) typeInMethod_statement isType ordered binding 34 rfl ended inside⟩

/-- At the name right after a local type, the type is not offered. -/
theorem nameAfterType_misses_type :
    ¬ ∀ (c : Context) (e e' : Environment) (body block type : Node) (b : BindingId) (position : Nat)
        (stopped : Bool) (r : Recorder), Environment.build c = .ok e → c.unit.tree.IsJava →
      c.document.tree.HasLeafNames → body ∈ c.unit.tree.root.preorder →
      body.kind.isBodyDeclaration = true → body.Reaches block → block.kind = .block →
      type ∈ block.namedChildren → type.kind.isTypeDeclaration = true → type.start ≤ type.stop →
      e.bindingOf type = some b → (e.context.unit.charRange type).2 ≤ position →
      (e.point position .onlyTypes).isInside block = true →
      outcome (run Scope.expressionType (e.point position .onlyTypes) body) ⟨e, Recorder.empty⟩ =
        (.ok stopped, ⟨e', r⟩) → some b ∈ r.offered := by
  intro claim
  have computed := nameAfterType_computed
  split at computed
  · cases computed
  · next e built =>
    dsimp only at computed
    split at computed
    · cases computed
    · next stopped e' r run =>
      simp only [Option.some.injEq, Prod.mk.injEq] at computed
      obtain ⟨none, binding, stop, inside, -⟩ := computed
      have offered := claim nameAfterType e e' (firstNode nameAfterType .methodDeclaration)
        (firstNode nameAfterType .block) typeInMethod (.type ⟨1⟩) 32 stopped r built
        nameAfterType_shape.1 nameAfterType_shape.2
        (List.mem_of_find?_eq_some (p := (·.kind == .methodDeclaration)) rfl) (by decide)
        nameAfterType_path (by decide) typeInMethod_statement (by decide)
        (by decide) binding (Nat.le_of_eq stop) inside run
      rw [none] at offered
      cases offered

end LocalWalk

end JavaScope
