import JavaScope.Proofs.Scope.Path
import JavaScope.Proofs.Unit.Order

/-!
# Local variables and their blocks

A walk over a member offers a local variable once if the variable starts before the position and the
block that its declaration stands in holds the position, and otherwise not at all.
-/

namespace JavaScope

/-- The node in which the variables of a declaration are in scope: the block around it, the `switch`
block around its statement group, or the `for` statement that it initializes. -/
def Node.region? (declaration : Node) : Option Node :=
  match declaration.parent with
  | none => none
  | some up =>
    match up.kind with
    | .block | .constructorBody => some up
    | .switchBlockStatementGroup => up.parent
    | .forStatement => if declaration.field == some .init then some up else none
    | _ => none

namespace LocalWalk

/-- A walk that is asked for variables, at which a local variable is watched. -/
structure WatchesLocal (typeOf : Typing) (p : ScopePoint) (c : Context) (e₀ : Environment)
    (body declaration v : Node) (b : BindingId) : Prop extends
    Watch typeOf p c e₀ body declaration v b where
  isLocal : IsLocal c e₀ declaration v b
  vars : p.flags.vars = true

namespace WatchesLocal

variable {typeOf : Typing} {p : ScopePoint} {c : Context} {e₀ : Environment}
  {body declaration v region : Node} {b : BindingId}
  (watch : WatchesLocal typeOf p c e₀ body declaration v b)

/-! ## From the declarator to the region -/

/-- The kinds of regions. -/
def isRegion (kind : Kind) : Bool :=
  [.block, .constructorBody, .switchBlock, .forStatement].contains kind

/-- A step of the path out of a region, to a node where the walk offers the binding if the declarator
starts before the position. -/
structure Leaves (region m : Node) : Prop where
  passes : watch.Passes region m
  kind : isRegion region.kind = true
  offers : watch.Offers (if p.startsBefore v then 1 else 0) m
  plain : isList m.kind = false

include watch

/-- Here the binding is offered, if the declarator starts before the position. -/
theorem offers_declarator (hd : declaration ∈ body.preorder) :
    watch.Offers (if p.startsBefore v then 1 else 0) v := by
  obtain ⟨named, kind⟩ := watch.isLocal.named
  have hv : v ∈ body.preorder := Node.mem_preorder_of_mem_children hd watch.child
  rw [Watch.Offers, run_eq_level typeOf p v named, level, kind]
  apply Records.orElse_left
  · cases early : p.startsBefore v with
    | false =>
      rw [Bool.and_false]
      exact .pure
    | true =>
      have offered : watch.Sees _ (SearchM.offer (p.bindingOf v)) := .offer (p.bindingOf v)
      rw [watch.bindings, if_pos watch.isLocal.binding, ← watch.bindings] at offered
      have asked : offerDeclared p v (p.flags.vars && true) =
          (SearchM.offer (p.bindingOf v) : SearchM Recorder Bool) := by rw [watch.vars]; rfl
      rw [asked]
      exact offered
  · apply Records.composes.anyM
    intro d hd
    apply watch.offers_zero (Node.mem_preorder_of_mem_children hv hd)
    exact Node.not_mem_preorder_of_mem_children hd

theorem offers_declaration (hd : declaration ∈ body.preorder) :
    watch.Offers (if p.startsBefore v then 1 else 0) declaration := by
  have named : declaration.isNamed = true := by
    by_contra token
    exact watch.active (.inl (by simpa using token))
  have step : StepsTo typeOf p (watch.Sees 0) (watch.Sees (if p.startsBefore v then 1 else 0))
      declaration v :=
    { fits := watch.java.fits _ watch.member
      nodup := watch.java.nodup_children watch.member
      leads := ⟨watch.child, by rw [watch.isLocal.kind]; rfl, by rw [watch.isLocal.kind]; nofun⟩
      code := by
        obtain ⟨isNamed, kind⟩ := watch.isLocal.named
        refine ⟨?_, by rw [Node.mayHoldCode, watch.isLocal.kind, watch.isLocal.child.2]; rfl⟩
        rintro (token | header | annotation)
        · rw [isNamed] at token
          cases token
        · rw [kind] at header
          cases header
        · rw [kind] at annotation
          cases annotation
      carried := watch.offers_declarator hd
      beside := by
        intro d below other
        apply watch.offers_zero (Node.mem_preorder_of_mem_children hd below)
        intro hv
        exact other (Node.eq_of_mem_preorder below watch.child hv (Node.mem_preorder_self v))
      late := by
        intro _ late a ha
        rw [late]
        exact ha }
  rw [Watch.Offers, run_eq_level typeOf p declaration named, level, watch.isLocal.kind]
  exact step.backwards (Records.carries _) (by rw [watch.isLocal.kind]; rfl) List.filter_sublist
    watch.isLocal.declarator

omit watch in
/-- A late declarator is not offered. -/
theorem late_offers (late : p.startsBefore v = false) : (if p.startsBefore v then 1 else 0) = 0 := by
  rw [late]
  rfl

/-- The path to the declaration goes through its region. -/
theorem leads_region (path : body.Reaches declaration)
    (start : body.kind ≠ .localVariableDeclaration ∧ body.kind ≠ .switchBlockStatementGroup)
    (inside : declaration.region? = some region) :
    body.Reaches region ∧ ∃ m, watch.Leaves region m := by
  have hd := path.mem_preorder
  have plain : isList declaration.kind = false := by rw [watch.isLocal.kind]; rfl
  rcases path.eq_or_last with rfl | ⟨up, above, last⟩
  · exact absurd watch.isLocal.kind start.1
  · have passes : watch.Passes up declaration := ⟨above.mem_preorder, last, .refl _⟩
    have offers := watch.offers_declaration hd
    rw [Node.region?, Node.parent_of_mem_children last.below] at inside
    cases kind : up.kind <;> simp only [kind, reduceCtorEq] at inside
    case block | constructorBody =>
      cases inside
      exact ⟨above, declaration, passes, by rw [kind]; rfl, offers, plain⟩
    case forStatement =>
      split at inside
      · cases inside
        exact ⟨above, declaration, passes, by rw [kind]; rfl, offers, plain⟩
      · cases inside
    case switchBlockStatementGroup =>
      -- the group is no region, so the path goes one step further up
      rcases above.eq_or_last with rfl | ⟨around, above, last'⟩
      · exact absurd kind start.2
      · have group := (watch.java.fits up passes.mem_root).group kind
        rw [Node.parent_of_mem_children last'.below] at inside group
        cases inside
        have kind' : region.kind = .switchBlock := by simpa using group
        have hands := watch.handsOn passes offers plain late_offers
        have passes' : watch.Passes region up := ⟨above.mem_preorder, last', .step last (.refl _)⟩
        refine ⟨above, up, passes', by rw [kind']; rfl, ?_, by rw [kind]; rfl⟩
        rw [Watch.Offers, run_eq_level typeOf p up hands.handsOver.start_named, level, kind]
        exact hands.handsOver.backwards_named (Records.carries _) (by rw [kind]; rfl)

theorem Leaves.kind_cases {m : Node} (leaves : watch.Leaves region m) :
    region.kind = .block ∨ region.kind = .constructorBody ∨ region.kind = .switchBlock ∨
      region.kind = .forStatement := by
  simpa [isRegion] using leaves.kind

theorem Leaves.plain_region {m : Node} (leaves : watch.Leaves region m) :
    isList region.kind = false := by
  rcases leaves.kind_cases with kind | kind | kind | kind <;> rw [kind] <;> rfl

/-- The region hands on the binding if it holds the position. -/
theorem Leaves.offers_region {m : Node} (leaves : watch.Leaves region m) :
    watch.Offers (if p.startsBefore v && p.isInside region then 1 else 0) region := by
  have hands := watch.handsOn leaves.passes leaves.offers leaves.plain late_offers
  have named : region.isNamed = true := hands.handsOver.start_named
  rw [Watch.Offers, run_eq_level typeOf p region named]
  cases inside : p.isInside region with
  | true =>
    rw [Bool.and_true]
    apply hands.sees_level
    · rcases leaves.kind_cases with kind | kind | kind | kind <;> rw [kind] <;> rfl
    · intro outside
      rw [outside] at inside
      cases inside
  | false =>
    -- a region is not entered from outside
    rw [Bool.and_false]
    rcases leaves.kind_cases with kind | kind | kind | kind <;> rw [level, kind] <;>
      simp only [inside] <;> exact .pure

end WatchesLocal

end LocalWalk

/-! ## The walk over a member -/

/-- The point at a position of an environment's unit, for walks in the environment. -/
def Environment.point (e : Environment) (position : Nat) (flags : Flags) : ScopePoint :=
  ⟨e.context.unit, e.bindingOf, position, flags⟩

namespace LocalWalk

/-- The kinds of members that are walked over. -/
theorem body_kind {body : Node}
    (h : body.kind.isBodyDeclaration = true ∨ body.isInitializerBlock = true) :
    body.kind ≠ .localVariableDeclaration ∧ body.kind ≠ .switchBlockStatementGroup ∧
      body.kind.isFieldDeclaration = false := by
  have kinds := Node.kind_of_isMember h
  simp only [List.mem_cons, List.not_mem_nil, or_false] at kinds
  rcases kinds with kind | kind | kind | kind | kind <;> rw [kind] <;> exact ⟨nofun, nofun, rfl⟩

/-- `class A { void m() { int x; x++; } }` -/
def usedVariable : Context :=
  .ofFile "class A \x7b void m() \x7b int x; x++; \x7d \x7d" <|
    .named .program none 0 36 [
      .named .classDeclaration none 0 36 [
        .token "class" 0, .named .identifier (some .name) 6 7 [],
        .named .classBody (some .body) 8 36 [
          .token "\x7b" 8,
          .named .methodDeclaration none 10 34 [
            .named .voidType (some .type) 10 14 [], .named .identifier (some .name) 15 16 [],
            .named .formalParameters (some .parameters) 16 18 [.token "(" 16, .token ")" 17],
            .named .block (some .body) 19 34 [
              .token "\x7b" 19,
              .named .localVariableDeclaration none 21 27 [
                .named .integralType (some .type) 21 24 [.token "int" 21],
                .named .variableDeclarator (some .declarator) 25 26 [
                  .named .identifier (some .name) 25 26 []],
                .token ";" 26],
              .named .expressionStatement none 28 32 [
                .named (.other "update_expression") none 28 31 [
                  .named .identifier none 28 29 [], .token "++" 29],
                .token ";" 31],
              .token "\x7d" 33]],
          .token "\x7d" 35]]]

/-- The first node of a kind. -/
def usedNode (kind : Kind) : Node :=
  (usedVariable.root.preorder.find? (·.kind == kind)).getD usedVariable.root

set_option maxRecDepth 100000 in
theorem usedVariable_computed :
    (match Environment.build usedVariable with
    | .error _ => none
    | .ok e => e.bindingOf (usedNode .variableDeclarator)) = some (.variable ⟨0⟩) := by
  decide +kernel

theorem usedVariable_path :
    (usedNode .methodDeclaration).Reaches (usedNode .localVariableDeclaration) := by
  have method : (usedNode .methodDeclaration).Leads (usedNode .block) :=
    ⟨List.mem_of_getElem? (i := 3) rfl, by decide, by decide⟩
  have block : (usedNode .block).Leads (usedNode .localVariableDeclaration) :=
    ⟨List.mem_of_getElem? (i := 1) rfl, by decide, by decide⟩
  exact .step method (.step block (.refl _))

/-- `class A { <T> void m(T a) { int v; switch (new B<T>(a).k()) { case X + Y: } } }`. The key of
`B<T>` holds that of `T`, this one the key of `m`, and this one again the key of `T`. -/
def endlessKey : Context :=
  .ofFile "class A \x7b <T> void m(T a) \x7b int v; switch (new B<T>(a).k()) \x7b case X + Y: \x7d \x7d \x7d" <|
    .named .program none 0 79 [
      .named .classDeclaration none 0 79 [
        .token "class" 0, .named .identifier (some .name) 6 7 [],
        .named .classBody (some .body) 8 79 [
          .token "\x7b" 8,
          .named .methodDeclaration none 10 77 [
            .named .typeParameters (some (.other "type_parameters")) 10 13 [
              .token "<" 10,
              .named .typeParameter none 11 12 [.named .typeIdentifier none 11 12 []],
              .token ">" 12],
            .named .voidType (some .type) 14 18 [], .named .identifier (some .name) 19 20 [],
            .named .formalParameters (some .parameters) 20 25 [
              .token "(" 20,
              .named .formalParameter none 21 24 [
                .named .typeIdentifier (some .type) 21 22 [],
                .named .identifier (some .name) 23 24 []],
              .token ")" 24],
            .named .block (some .body) 26 77 [
              .token "\x7b" 26,
              .named .localVariableDeclaration none 28 34 [
                .named .integralType (some .type) 28 31 [.token "int" 28],
                .named .variableDeclarator (some .declarator) 32 33 [
                  .named .identifier (some .name) 32 33 []],
                .token ";" 33],
              .named .switchExpression none 35 75 [
                .token "switch" 35,
                .named .parenthesizedExpression (some .condition) 42 59 [
                  .token "(" 42,
                  .named .methodInvocation none 43 58 [
                    .named .objectCreationExpression (some .object) 43 54 [
                      .token "new" 43,
                      .named .genericType (some .type) 47 51 [
                        .named .typeIdentifier none 47 48 [],
                        .named .typeArguments none 48 51 [
                          .token "<" 48, .named .typeIdentifier none 49 50 [], .token ">" 50]],
                      .named (.other "argument_list") (some .arguments) 51 54 [
                        .token "(" 51, .named .identifier none 52 53 [], .token ")" 53]],
                    .token "." 54, .named .identifier (some .name) 55 56 [],
                    .named (.other "argument_list") (some .arguments) 56 58 [
                      .token "(" 56, .token ")" 57]],
                  .token ")" 58],
                .named .switchBlock (some .body) 60 75 [
                  .token "\x7b" 60,
                  .named .switchBlockStatementGroup none 62 73 [
                    .named .switchLabel none 62 72 [
                      .token "case" 62,
                      .named (.other "binary_expression") none 67 72 [
                        .named .identifier (some (.other "left")) 67 68 [], .token "+" 69,
                        .named .identifier (some (.other "right")) 71 72 []]],
                    .token ":" 72],
                  .token "\x7d" 74]],
              .token "\x7d" 76]],
          .token "\x7d" 78]]]

/-- The first node of a kind in that file. -/
def endlessNode (kind : Kind) : Node :=
  (endlessKey.root.preorder.find? (·.kind == kind)).getD endlessKey.root

set_option maxRecDepth 100000 in
theorem endlessKey_computed :
    (match Environment.build endlessKey with
    | .error _ => none
    | .ok e =>
      match outcome (run Scope.expressionType (e.point 67 .onlyVariables)
          (endlessNode .methodDeclaration)) ⟨e, Recorder.empty⟩ with
      | (.error f, ⟨_, r⟩) => some (e.bindingOf (endlessNode .variableDeclarator),
        (e.point 67 .onlyVariables).startsBefore (endlessNode .variableDeclarator),
        (e.point 67 .onlyVariables).isInside (endlessNode .block), f, r.times (.variable ⟨1⟩))
      | (.ok _, _) => none) = some (some (.variable ⟨1⟩), true, true, .endless, 0) := by
  decide +kernel

end LocalWalk

end JavaScope
