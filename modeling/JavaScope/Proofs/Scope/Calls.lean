import JavaScope.Proofs.Scope.Combined
import JavaScope.Proofs.Scope.QualifiedMembers

/-!
# Resolved invocations

An invocation is resolved to the first method that passes a test, breadth first through the hierarchy
of the type that it is made on or, where it stands alone, of the types around it. The method has the
invoked name and is no constructor, but it need not be able to take the arguments: a method with a
varargs parameter passes for any number of them, and the comments between the brackets are counted as
arguments.
-/

namespace JavaScope

/-! ## Arguments -/

/-- What may stand between the parts of any node: comments, and texts that the parser could not
place. -/
def Kind.isAside : Kind → Bool
  | .error => true
  | .other name => ["line_comment", "block_comment"].contains name
  | _ => false

namespace Node

/-- What stands between the brackets of an invocation, tokens left out. -/
def argumentParts (n : Node) : List Node :=
  ((n.childByField .arguments).map namedChildren).getD []

/-- The arguments of an invocation. -/
def arguments (n : Node) : List Node :=
  n.argumentParts.filter fun m => !m.kind.isAside

/-- What stands between the brackets of an invocation beside its arguments. -/
def asides (n : Node) : List Node :=
  n.argumentParts.filter fun m => m.kind.isAside

/-- The number of arguments that an invocation is resolved with. -/
theorem arity_eq (n : Node) :
    ((n.childByField .arguments).map (·.namedChildren.length)).getD 0 =
      n.arguments.length + n.asides.length := by
  have parts : ((n.childByField .arguments).map (·.namedChildren.length)).getD 0 =
      n.argumentParts.length := by
    rw [argumentParts]
    cases n.childByField .arguments <;> rfl
  rw [parts, List.length_eq_length_filter_add fun m => !m.kind.isAside]
  simp [arguments, asides]

end Node

/-- The method can take this many arguments. Any number of them, also none, can stand for a varargs
parameter. -/
def MethodBinding.Takes (method : MethodBinding) (k : Nat) : Prop :=
  method.parameterTypes.length = k ∨
    (method.isVarargs = true ∧ method.parameterTypes.length ≤ k + 1)

/-! ## What a search finds fits -/

section Search

variable {e₀ : Environment} {fits : Store → BindingId → Bool}
  (steady : ∀ s, e₀.store.Grows s → ∀ b, fits s b = fits e₀.store b)

include steady

theorem ensures_findMemberWith (fuel : Nat) (pending : List (Option TypeId))
    (visited : List TypeId) :
    Ensures e₀.Grows (findMemberWith fits fuel pending visited) fun found e =>
      (∀ b ∈ found, fits e₀.store b = true) ∧ e₀.Grows e := by
  induction fuel generalizing pending visited with
  | zero =>
    unfold findMemberWith
    refine (Environment.ensures_read Environment.store).bind fun s => ?_
    refine Ensures.ofExcept_bind fun next _ => ?_
    cases next with
    | none => exact .pure fun e h => ⟨by simp, h.2⟩
    | some next => exact .throw .endless
  | succ fuel ih =>
    unfold findMemberWith
    refine (Environment.ensures_read Environment.store).bind fun s => ?_
    refine Ensures.ofExcept_bind fun next _ => ?_
    cases next with
    | none => exact .pure fun e h => ⟨by simp, h.2⟩
    | some next =>
      dsimp only
      split
      · next b first =>
        refine .pure ?_
        rintro e ⟨rfl, grown⟩
        refine ⟨?_, grown⟩
        rintro _ ⟨⟩
        rw [← steady e.store grown.store]
        exact List.find?_some first
      · exact Ensures.bind
          ((keeps_supertypes next.1).ensures.weaken (fun _ h => h.2) fun _ _ h => h) fun ups => ih _ _

theorem ensures_findMember (t : TypeId) :
    Ensures e₀.Grows (findMember t fits) fun found e =>
      (∀ b ∈ found, fits e₀.store b = true) ∧ e₀.Grows e :=
  (Environment.ensures_read Environment.store).bind fun s =>
    (ensures_findMemberWith steady (s.types.size + 2) [some t] []).weaken (fun _ h => h.2)
      fun _ _ h => h

theorem Scope.ensures_findMemberOutwards (fuel : Nat) (t : Option TypeId) :
    Ensures e₀.Grows (findMemberOutwards fits fuel t) fun found e =>
      (∀ b ∈ found, fits e₀.store b = true) ∧ e₀.Grows e := by
  induction fuel generalizing t with
  | zero =>
    cases t with
    | none => exact .pure fun e h => ⟨by simp, h⟩
    | some t => exact .throw .endless
  | succ fuel ih =>
    cases t with
    | none => exact .pure fun e h => ⟨by simp, h⟩
    | some t =>
      refine (ensures_findMember steady t).bind fun found => ?_
      cases found with
      | some b => exact .pure fun e h => h
      | none =>
        exact (Environment.ensures_read Environment.store).bind fun s =>
          (ih (s.type t).declaringClass).weaken (fun _ h => h.2.2) fun _ _ h => h

end Search

/-! ## What a search finds first -/

namespace Environment

/-- Breadth first through the hierarchy of a type, this member is the first one that fits. -/
def FindsIn (e : Environment) (fits : BindingId → Bool) (t : TypeId) (found : Option BindingId) :
    Prop :=
  ∃ order, BreadthFirst e.declarationsAbove [] [e.store.declarationOfType t] order ∧
    found = (order.flatMap (membersOf e.store)).find? fits

/-- What is found from a type outwards: a member of its hierarchy, or else what is found from the type
around it. -/
inductive FindsOutwards (e : Environment) (fits : BindingId → Bool) :
    Option TypeId → Option BindingId → Prop
  | outside : FindsOutwards e fits none none
  | inside {t : TypeId} {b : BindingId} (here : e.FindsIn fits t (some b)) :
      FindsOutwards e fits (some t) (some b)
  | around {t : TypeId} {found : Option BindingId} (nothing : e.FindsIn fits t none)
      (further : FindsOutwards e fits (e.store.type t).declaringClass found) :
      FindsOutwards e fits (some t) found

variable {e : Environment} {fits : BindingId → Bool} {found : Option BindingId}

theorem FindsIn.passes {t : TypeId} (finds : e.FindsIn fits t found) : ∀ b ∈ found, fits b = true := by
  obtain ⟨order, -, rfl⟩ := finds
  intro b first
  exact List.find?_some first

theorem FindsOutwards.passes {t : Option TypeId} (finds : e.FindsOutwards fits t found) :
    ∀ b ∈ found, fits b = true := by
  induction finds with
  | outside => simp
  | inside here => exact here.passes
  | around nothing further ih => exact ih

/-- In an environment that has grown from a built one, the search through the hierarchy of a type
always answers. -/
theorem findsIn_findMember {c : Context} {e₀ e e' : Environment} (built : build c = .ok e₀)
    (shape : c.document.tree.HasLeafNames) (elements : c.document.tree.HasElements)
    (grown : e₀.GrowsByLeaves e) {fits : Store → BindingId → Bool}
    (steady : ∀ s, e.store.Grows s → ∀ b, fits s b = fits e.store b) (rooted : e.IsRooted e')
    (t : TypeId) :
    ∃ found e'', outcome (findMember t fits) e' = (.ok found, e'') ∧ e.IsRooted e'' ∧
      e.FindsIn (fits e.store) t found := by
  have complete := (grown.listsTypes (build_listsTypes built shape elements)).completeAbove
    (e.store.declarationOfType t)
  -- what is reached is the declaration itself, or has a place in the store or the next one
  have inside : ∀ u, e.Reaches (e.store.declarationOfType t) u →
      u ∈ insert (e.store.declarationOfType t) (typesUpTo e.store.types.size) := by
    intro u way
    cases way with
    | refl => exact Finset.mem_insert_self _ _
    | tail _ last =>
      refine Finset.mem_insert_of_mem (mem_typesUpTo.2 ?_)
      exact grown.index_le_of_isBelow (build_ready built).sound.closed last
  have few := (Finset.card_insert_le (e.store.declarationOfType t) _).trans
    (Nat.succ_le_succ (card_typesUpTo_le e.store.types.size))
  obtain ⟨order, e'', run, rooted', breadthFirst⟩ :=
    outcome_findMember complete inside few steady rooted
  exact ⟨_, e'', run, rooted', order, breadthFirst, rfl⟩

end Environment

namespace Scope

/-- What a search outwards answers with is found outwards. -/
theorem findsOutwards_of_ok {c : Context} {e₀ e e' e'' : Environment}
    (built : Environment.build c = .ok e₀) (shape : c.document.tree.HasLeafNames)
    (elements : c.document.tree.HasElements) (grown : e₀.GrowsByLeaves e)
    {fits : Store → BindingId → Bool}
    (steady : ∀ s, e.store.Grows s → ∀ b, fits s b = fits e.store b) (rooted : e.IsRooted e')
    {fuel : Nat} {t : Option TypeId} {found : Option BindingId}
    (run : outcome (findMemberOutwards fits fuel t) e' = (.ok found, e'')) :
    e.FindsOutwards (fits e.store) t found := by
  induction fuel generalizing t e' with
  | zero =>
    cases t with
    | none =>
      cases run
      exact .outside
    | some t => cases run
  | succ fuel ih =>
    cases t with
    | none =>
      cases run
      exact .outside
    | some t =>
      obtain ⟨first, e₁, here, rooted₁, finds⟩ :=
        Environment.findsIn_findMember built shape elements grown steady rooted t
      have read : outcome (EnvironmentM.read Environment.store) e₁ = (.ok e₁.store, e₁) := rfl
      rw [findMemberOutwards, outcome_bind_of_ok here] at run
      cases first with
      | some b =>
        cases run
        exact .inside finds
      | none =>
        dsimp only at run
        rw [outcome_bind_of_ok read,
          Environment.property_eq rooted₁ TypeBinding.declaringClass rfl] at run
        exact .around finds (ih rooted₁ run)

/-! ## Invocations -/

/-- The method has passed the test for an invocation. It can take the arguments exactly if, being
varargs, it has at most one parameter more, and otherwise no comment stands among them. -/
structure IsCalledBy (e : Environment) (n : Node) (m : MethodId) : Prop where
  name : (e.store.method m).name = e.document.textOf? (n.childByField .name)
  plain : (e.store.method m).isConstructor = false
  arity : (e.store.method m).parameterTypes.length = n.arguments.length + n.asides.length ∨
    (e.store.method m).isVarargs = true
  takes : (e.store.method m).Takes n.arguments.length ↔
    if (e.store.method m).isVarargs = true then
      (e.store.method m).parameterTypes.length ≤ n.arguments.length + 1
    else n.asides = []

/-- The method can be called by an invocation. -/
def fitsCall (d : Document) (invocation : Node) : Store → BindingId → Bool :=
  isCallable (d.textOf? (invocation.childByField .name))
    (((invocation.childByField .arguments).map (·.namedChildren.length)).getD 0)

theorem exists_method_of_fitsCall {d : Document} {n : Node} {s : Store} {b : BindingId}
    (h : fitsCall d n s b = true) : ∃ m, b = .method m := by
  cases b with
  | method m => exact ⟨m, rfl⟩
  | type t => cases h
  | «variable» v => cases h

/-- What an invocation finds: nothing where the type of its qualifier cannot be told, a member of this
type where it can, and otherwise a member of a type around. -/
inductive FindsCall (e : Environment) (n : Node) : Option BindingId → Prop
  | untold {e₁ : Environment}
      (told : outcome (qualifierOf expressionType (n.childByField .name)) e = (.ok .unknown, e₁)) :
      FindsCall e n none
  | qualified {e₁ : Environment} {t : TypeId} {found : Option BindingId}
      (told : outcome (qualifierOf expressionType (n.childByField .name)) e = (.ok (.type t), e₁))
      (finds : e₁.FindsIn (fitsCall e.document n e.store) t found) : FindsCall e n found
  | alone {e₁ : Environment} {found : Option BindingId}
      (told : outcome (qualifierOf expressionType (n.childByField .name)) e = (.ok .absent, e₁))
      (finds : e₁.FindsOutwards (fitsCall e.document n e.store) (e.enclosingType n) found) :
      FindsCall e n found

theorem steady_fitsCall (d : Document) (n : Node) {s s' : Store} (grown : s.Grows s')
    (b : BindingId) : fitsCall d n s' b = fitsCall d n s b := by
  simp only [fitsCall, isCallable, grown.method_eq]

theorem map_method_bind {d : Document} {n : Node} {s : Store} {found : Option BindingId}
    (fits : ∀ b ∈ found, fitsCall d n s b = true) :
    (found.bind BindingId.methodId?).map .method = found := by
  cases found with
  | none => rfl
  | some b =>
    obtain ⟨m, rfl⟩ := exists_method_of_fitsCall (fits b rfl)
    rfl

theorem isCalledBy_of_fitsCall {e : Environment} {n : Node} {m : MethodId}
    (fits : fitsCall e.document n e.store (.method m) = true) : IsCalledBy e n m := by
  simp only [fitsCall, isCallable, BindingId.methodId?, Option.any_some, Node.arity_eq,
    Bool.and_eq_true, Bool.or_eq_true, Bool.not_eq_true', beq_iff_eq] at fits
  obtain ⟨⟨name, plain⟩, arity⟩ := fits
  refine ⟨name, plain, arity, ?_⟩
  rw [MethodBinding.Takes]
  split
  · next varargs =>
    rw [and_iff_right varargs, or_iff_right_iff_imp]
    omega
  · next fixed =>
    have parameters := arity.resolve_right fixed
    rw [or_iff_left fun h => fixed h.1, parameters, Nat.add_eq_left, List.length_eq_zero_iff]

theorem ensures_resolveMethod (e : Environment) (n : Node) :
    Ensures e.Grows (resolveMethod expressionType n) fun found _ => ∀ m ∈ found, IsCalledBy e n m := by
  have steady : ∀ s, e.store.Grows s → ∀ b,
      fitsCall e.document n s b = fitsCall e.document n e.store b :=
    fun s grown => steady_fitsCall e.document n grown
  refine Ensures.bind (Q := fun d e' => d = e.document ∧ e.Grows e')
    ((Environment.ensures_read Environment.document).weaken (fun e' h => h) ?_) fun d =>
      .of_fact fun document => ?_
  · rintro d e' ⟨rfl, grown⟩
    exact ⟨grown.document, grown⟩
  subst document
  refine Ensures.bind (Q := fun _ => e.Grows) (keeps_qualifierOf keeps_expressionType _).ensures
    fun qualifier => ?_
  -- a member that fits is a method
  have answer : ∀ found : Option BindingId,
      Ensures (fun e' => (∀ b ∈ found, fitsCall e.document n e.store b = true) ∧ e.Grows e')
        (pure (found.bind BindingId.methodId?)) fun found _ => ∀ m ∈ found, IsCalledBy e n m := by
    rintro found e' ⟨fits, -⟩ _ _ ⟨⟩ m hm
    obtain ⟨b, rfl, method⟩ := Option.bind_eq_some_iff.1 hm
    obtain ⟨m', rfl⟩ := exists_method_of_fitsCall (fits b rfl)
    cases method
    exact isCalledBy_of_fitsCall (fits _ rfl)
  cases qualifier with
  | unknown => exact Ensures.bind (.pure fun e' h => ⟨by simp, h⟩) answer
  | type t => exact (ensures_findMember steady t).bind answer
  | absent =>
    exact Ensures.bind (Q := fun _ => e.Grows) (.get fun e' h => h) fun e₁ =>
      (ensures_findMemberOutwards steady _ _).bind answer

theorem findsCall_of_ok {c : Context} {e₀ e e' : Environment}
    (built : Environment.build c = .ok e₀) (shape : c.document.tree.HasLeafNames)
    (elements : c.document.tree.HasElements) (grown : e₀.GrowsByLeaves e) {n : Node}
    {found : Option MethodId}
    (resolved : outcome (resolveMethod expressionType n) e = (.ok found, e')) :
    FindsCall e n (found.map .method) := by
  have read : outcome (EnvironmentM.read Environment.document) e = (.ok e.document, e) := rfl
  rw [resolveMethod, outcome_bind_of_ok read] at resolved
  obtain ⟨qualifier, e₁, told, rest⟩ := outcome_bind_eq_ok.1 resolved
  have since : e.Grows e₁ := (keeps_qualifierOf keeps_expressionType _).ensures e (.refl e) _ _ told
  have grown₁ : e₀.GrowsByLeaves e₁ :=
    (keeps_qualifierOf keeps_expressionType _).ensures e grown _ _ told
  have same : fitsCall e.document n e₁.store = fitsCall e.document n e.store :=
    funext (steady_fitsCall e.document n since.store)
  have steady : ∀ s, e₁.store.Grows s → ∀ b,
      fitsCall e.document n s b = fitsCall e.document n e₁.store b :=
    fun s grown => steady_fitsCall e.document n grown
  cases qualifier with
  | unknown =>
    cases rest
    exact .untold told
  | type t =>
    obtain ⟨member, e₂, here, -, finds⟩ :=
      Environment.findsIn_findMember built shape elements grown₁ steady (.refl e₁) t
    rw [same] at finds
    have run : outcome (findMember t (fitsCall e.document n) >>= fun found =>
      pure (found.bind BindingId.methodId?)) e₁ = (.ok found, e') := rest
    rw [outcome_bind_of_ok here] at run
    cases run
    rw [map_method_bind finds.passes]
    exact .qualified told finds
  | absent =>
    have run : outcome (findMemberOutwards (fitsCall e.document n) (e₁.store.types.size + 1)
      (e₁.enclosingType n) >>= fun found => pure (found.bind BindingId.methodId?)) e₁ =
        (.ok found, e') := rest
    obtain ⟨member, e₂, here, last⟩ := outcome_bind_eq_ok.1 run
    cases last
    have finds := findsOutwards_of_ok built shape elements grown₁ steady (.refl e₁) here
    rw [same, since.enclosingType] at finds
    rw [map_method_bind finds.passes]
    exact .alone told finds

/-- The method that an invocation is resolved to has passed the test for it. The invocation is resolved
to the first method that passes, breadth first through the hierarchy of the type that it is made on or,
where it stands alone, of the types around it; so it is resolved to none only where no method passes. -/
theorem resolveMethod_finds {e e' : Environment} {n : Node} {found : Option MethodId}
    (resolved : outcome (resolveMethod expressionType n) e = (.ok found, e')) :
    (∀ m ∈ found, IsCalledBy e n m) ∧
      ∀ (c : Context) (e₀ : Environment), Environment.build c = .ok e₀ →
        c.document.tree.HasLeafNames → c.document.tree.HasElements → e₀.GrowsByLeaves e →
        FindsCall e n (found.map .method) :=
  ⟨ensures_resolveMethod e n e (.refl e) found e' resolved, fun _ _ built shape elements grown =>
    findsCall_of_ok built shape elements grown resolved⟩

/-! ## Invocations without the arguments of their methods -/

/-- A method with a parameter and a varargs parameter is called without arguments, and a method with a
parameter is called with a comment for its argument. -/
def emptyCalls : Context :=
  .ofFile ("class A \x7b void m(int a, int... b) \x7b \x7d " ++
      "void n(int a) \x7b m(); n(/* */); \x7d \x7d") <|
    .named .program none 0 72 [
      .named .classDeclaration none 0 72 [
        .token "class" 0, .named .identifier (some .name) 6 7 [],
        .named .classBody (some .body) 8 72 [
          .token "\x7b" 8,
          .named .methodDeclaration none 10 37 [
            .named .voidType (some .type) 10 14 [],
            .named .identifier (some .name) 15 16 [],
            .named .formalParameters (some .parameters) 16 33 [
              .token "(" 16,
              .named .formalParameter none 17 22 [
                .named .integralType (some .type) 17 20 [.token "int" 17],
                .named .identifier (some .name) 21 22 []],
              .token "," 22,
              .named .spreadParameter none 24 32 [
                .named .integralType none 24 27 [.token "int" 24],
                .token "..." 27,
                .named .variableDeclarator none 31 32 [.named .identifier (some .name) 31 32 []]],
              .token ")" 32],
            .named .block (some .body) 34 37 [.token "\x7b" 34, .token "\x7d" 36]],
          .named .methodDeclaration none 38 70 [
            .named .voidType (some .type) 38 42 [],
            .named .identifier (some .name) 43 44 [],
            .named .formalParameters (some .parameters) 44 51 [
              .token "(" 44,
              .named .formalParameter none 45 50 [
                .named .integralType (some .type) 45 48 [.token "int" 45],
                .named .identifier (some .name) 49 50 []],
              .token ")" 50],
            .named .block (some .body) 52 70 [
              .token "\x7b" 52,
              .named .expressionStatement none 54 58 [
                .named .methodInvocation none 54 57 [
                  .named .identifier (some .name) 54 55 [],
                  .named (.other "argument_list") (some .arguments) 55 57 [
                    .token "(" 55, .token ")" 56]],
                .token ";" 57],
              .named .expressionStatement none 59 68 [
                .named .methodInvocation none 59 67 [
                  .named .identifier (some .name) 59 60 [],
                  .named (.other "argument_list") (some .arguments) 60 67 [
                    .token "(" 60, .named (.other "block_comment") none 61 66 [], .token ")" 66]],
                .token ";" 67],
              .token "\x7d" 69]],
          .token "\x7d" 71]]]

/-- The invocation of the method with this name. -/
def callOf (name : String) : Node :=
  (emptyCalls.root.preorder.find? fun n => n.kind == .methodInvocation &&
    emptyCalls.document.textOf? (n.childByField .name) == name).getD emptyCalls.root

theorem callOf_mem (name : String) : callOf name ∈ emptyCalls.root.preorder := by
  rw [callOf]
  cases found : emptyCalls.root.preorder.find? _ with
  | none => exact Node.mem_preorder_self _
  | some n => exact List.mem_of_find?_eq_some found

set_option maxRecDepth 100000 in
theorem emptyCalls_computed :
    (match Environment.build emptyCalls with
    | .error _ => none
    | .ok e =>
      match outcome (resolveMethod expressionType (callOf "m")) e,
          outcome (resolveMethod expressionType (callOf "n")) e with
      | (.ok (some m), _), (.ok (some m'), _) =>
        some (((e.store.method m).parameterTypes.length, (e.store.method m).isVarargs),
          ((e.store.method m').parameterTypes.length, (e.store.method m').isVarargs))
      | _, _ => none) = some ((2, true), (1, false)) := by
  decide +kernel

/-- What the invocations in this file are resolved to. -/
theorem emptyCalls_resolved :
    ∃ e e' e'' m m', Environment.build emptyCalls = .ok e ∧
      outcome (resolveMethod expressionType (callOf "m")) e = (.ok (some m), e') ∧
      outcome (resolveMethod expressionType (callOf "n")) e = (.ok (some m'), e'') ∧
      (e.store.method m).parameterTypes.length = 2 ∧
      (e.store.method m').parameterTypes.length = 1 ∧ (e.store.method m').isVarargs = false := by
  have computed := emptyCalls_computed
  split at computed
  · cases computed
  · next e built =>
    split at computed
    · next m e' m' e'' resolved resolved' =>
      simp only [Option.some.injEq, Prod.mk.injEq] at computed
      obtain ⟨⟨two, -⟩, one, fixed⟩ := computed
      exact ⟨e, e', e'', m, m', built, resolved, resolved', two, one, fixed⟩
    · cases computed

theorem callOf_parts :
    ((callOf "m").kind = .methodInvocation ∧ (callOf "m").arguments.length = 0 ∧
      (callOf "m").asides.length = 0) ∧
      (callOf "n").kind = .methodInvocation ∧ (callOf "n").arguments.length = 0 := by
  decide

theorem resolveMethod_finds_emptyCalls :
    ∃ e e' m, Environment.build emptyCalls = .ok e ∧
      emptyCalls.document.tree.HasLeafNames ∧ emptyCalls.document.tree.HasElements ∧
      outcome (resolveMethod expressionType (callOf "m")) e = (.ok (some m), e') ∧
      IsCalledBy e (callOf "m") m ∧ FindsCall e (callOf "m") (some (.method m)) := by
  obtain ⟨e, e', -, m, -, built, resolved, -⟩ := emptyCalls_resolved
  have shape : emptyCalls.document.tree.HasLeafNames := by decide
  have elements : emptyCalls.document.tree.HasElements := by decide
  obtain ⟨called, finds⟩ := resolveMethod_finds resolved
  exact ⟨e, e', m, built, shape, elements, resolved, called m rfl,
    finds emptyCalls e built shape elements (.refl e)⟩

/-- Neither method can take the arguments: one has too many parameters besides the varargs parameter,
the other one stands against a comment. -/
theorem emptyCalls_resolved_wrongly :
    (¬ ∀ (c : Context) (e e' : Environment) (n : Node) (m : MethodId), Environment.build c = .ok e →
      n ∈ c.root.preorder → n.kind = .methodInvocation → n.asides.length = 0 →
      outcome (resolveMethod expressionType n) e = (.ok (some m), e') →
      (e.store.method m).Takes n.arguments.length) ∧
    ¬ ∀ (c : Context) (e e' : Environment) (n : Node) (m : MethodId), Environment.build c = .ok e →
      n ∈ c.root.preorder → n.kind = .methodInvocation → (e.store.method m).isVarargs = false →
      outcome (resolveMethod expressionType n) e = (.ok (some m), e') →
      (e.store.method m).Takes n.arguments.length := by
  obtain ⟨e, e', e'', m, m', built, resolved, resolved', two, one, fixed⟩ := emptyCalls_resolved
  obtain ⟨⟨call, none, alone⟩, call', none'⟩ := callOf_parts
  constructor
  · intro claim
    have takes := claim emptyCalls e e' (callOf "m") m built (callOf_mem "m") call alone resolved
    rw [MethodBinding.Takes, two, none] at takes
    omega
  · intro claim
    have takes := claim emptyCalls e e'' (callOf "n") m' built (callOf_mem "n") call' fixed resolved'
    rw [MethodBinding.Takes, one, none', fixed] at takes
    simp at takes

end Scope

end JavaScope
