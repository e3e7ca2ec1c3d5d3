import JavaScope.Proofs.Binding.Supertypes

/-!
# Access to members

Whether a member can be accessed from a type depends on its access, on the packages of the two types,
and on what encloses and inherits from what. Where no type inherits from itself or lies in itself, this
is always told. A wider access grants a member to every type that a narrower one does, and a nested
type is granted what the type around it is.
-/

namespace JavaScope

/-! ## Access -/

/-- How widely a declaration can be accessed. -/
inductive Access where
  | «private»
  | package
  | «protected»
  | «public»
  deriving DecidableEq, Repr

namespace Access

/-- The place of an access among all, the narrowest first. -/
def rank : Access → Nat
  | .private => 0
  | .package => 1
  | .protected => 2
  | .public => 3

/-- The second access is at least as wide. -/
instance : LE Access := ⟨fun a b => a.rank ≤ b.rank⟩

instance (a b : Access) : Decidable (a ≤ b) :=
  inferInstanceAs (Decidable (a.rank ≤ b.rank))

end Access

/-- The access that a declaration with these modifiers has: of several the widest, and without any
that of its package. -/
def Modifiers.access (ms : Modifiers) : Access :=
  if ms.isPublic then .public
  else if ms.isProtected then .protected
  else if ms.isPrivate then .private
  else .package

theorem Modifiers.access_eq_public {ms : Modifiers} : ms.access = .public ↔ ms.isPublic = true := by
  cases h : ms.isPublic <;> cases h' : ms.isProtected <;> cases h'' : ms.isPrivate <;>
    simp [access, h, h', h'']

namespace Store

/-- No type inherits from itself or lies in itself. -/
structure IsAcyclic (s : Store) : Prop where
  inherits : ∀ t, ¬ Relation.TransGen s.Inherits t t
  lies : ∀ t, ¬ Relation.TransGen s.LiesIn t t

variable {s : Store} {declaring context : TypeId}

/-! ## Enclosing types -/

/-- The type or one that encloses it has the property. -/
def Around (s : Store) (P : TypeId → Prop) (t : TypeId) : Prop :=
  ∃ u, Relation.ReflTransGen s.LiesIn t u ∧ P u

theorem around_iff {P : TypeId → Prop} {t : TypeId} :
    s.Around P t ↔ P t ∨ ∃ u, s.LiesIn t u ∧ s.Around P u := by
  constructor
  · rintro ⟨u, way, holds⟩
    rcases way.cases_head with rfl | ⟨next, link, rest⟩
    · exact .inl holds
    · exact .inr ⟨next, link, u, rest, holds⟩
  · rintro (holds | ⟨next, link, u, rest, holds⟩)
    · exact ⟨t, .refl, holds⟩
    · exact ⟨u, rest.head link, holds⟩

/-- The type has the members of the type `declaring`: it is the same or, if the hierarchy counts,
stands below it. -/
def HasMembers (s : Store) (declaring : TypeId) (hierarchy : Bool) (t : TypeId) : Prop :=
  t = declaring ∨ hierarchy = true ∧ Relation.ReflTransGen (s.StepsTowards declaring) t declaring

/-- The test goes outwards from a type, and tells whether one on the way has the members. -/
theorem decides_isTypeInScope (acyclic : s.IsAcyclic) {hierarchy : Bool}
    (classOnly : hierarchy = true → s.isInterface declaring = false) (context : TypeId) :
    Decides (s.isTypeInScope declaring context hierarchy)
      (s.Around (s.HasMembers declaring hierarchy) (s.declarationOfType context)) := by
  refine holds_of_acyclic
    (P := fun fuel t => Decides (s.isEnclosedWith declaring hierarchy fuel (some t))
      (s.Around (s.HasMembers declaring hierarchy) t))
    acyclic.lies (fun _ _ link => link.index_lt) ?_ (Nat.lt_succ_self _) _
  intro fuel t next
  have around : Decides (s.isEnclosedWith declaring hierarchy fuel (s.type t).declaringClass)
      (∃ u, s.LiesIn t u ∧ s.Around (s.HasMembers declaring hierarchy) u) := by
    cases owner : (s.type t).declaringClass with
    | none =>
      unfold isEnclosedWith
      exact .pure (by simp [LiesIn, owner])
    | some u => exact (next u owner).congr (by simp [LiesIn, owner])
  unfold isEnclosedWith
  refine .ite (fun same => .pure (iff_of_true rfl ⟨t, .refl, .inl same⟩)) fun other => ?_
  refine Decides.congr (.ite (fun counts => ?_) fun ignored => ?_) around_iff.symm
  · have given : s.isInterface declaring = true → ∀ t, none ∉ (s.type t).interfaces := by
      simp [classOnly counts]
    have inherits := decides_isSupertype acyclic.inherits given t
    exact (inherits.congr (by simp [HasMembers, other, counts])).orElse around
  · exact (Decides.pure (by simp [HasMembers, other, ignored])).orElse around

/-! ## Granted access -/

/-- Both types stand in one package, the second one with its declaration. -/
def SharePackage (s : Store) (declaring context : TypeId) : Prop :=
  (s.type declaring).package = (s.type (s.declarationOfType context)).package

/-- A member of the type `declaring` with this access is granted to the type `context`. -/
def Grants (s : Store) (declaring context : TypeId) : Access → Prop
  | .public => True
  | .protected => s.SharePackage declaring context ∨
    s.Around (s.HasMembers declaring true) (s.declarationOfType context)
  | .package => s.SharePackage declaring context ∨
    s.Around (s.HasMembers declaring false) (s.declarationOfType context)
  | .private => s.Around (s.HasMembers declaring false) (s.declarationOfType context)

theorem Grants.mono {a a' : Access} (granted : s.Grants declaring context a) (wider : a ≤ a') :
    s.Grants declaring context a' := by
  have inherited : s.Around (s.HasMembers declaring false) (s.declarationOfType context) →
      s.Around (s.HasMembers declaring true) (s.declarationOfType context) := by
    rintro ⟨t, way, same | ⟨⟨⟩, -⟩⟩
    exact ⟨t, way, .inl same⟩
  cases a' with
  | «public» => trivial
  | «protected» =>
    cases a with
    | «public» => exact absurd wider (by decide)
    | «protected» => exact granted
    | package => exact granted.imp_right inherited
    | «private» => exact .inr (inherited granted)
  | package =>
    cases a with
    | «public» | «protected» => exact absurd wider (by decide)
    | package => exact granted
    | «private» => exact .inr granted
  | «private» =>
    cases a with
    | «public» | «protected» | package => exact absurd wider (by decide)
    | «private» => exact granted

/-- What is granted to a type is granted to the types in it. -/
theorem Grants.nested {a : Access} {inner : TypeId} (granted : s.Grants declaring context a)
    (lies : s.LiesIn (s.declarationOfType inner) (s.declarationOfType context))
    (package : (s.type (s.declarationOfType inner)).package =
      (s.type (s.declarationOfType context)).package) : s.Grants declaring inner a := by
  have outwards : ∀ {P : TypeId → Prop}, s.Around P (s.declarationOfType context) →
      s.Around P (s.declarationOfType inner) := fun around => around_iff.2 (.inr ⟨_, lies, around⟩)
  have shared : s.SharePackage declaring context → s.SharePackage declaring inner := by
    intro same
    rw [SharePackage, package]
    exact same
  cases a with
  | «public» => trivial
  | «protected» | package => exact granted.imp shared outwards
  | «private» => exact outwards granted

/-- Every member is granted to the types in its type. -/
theorem grants_of_lies (access : Access)
    (lies : Relation.ReflTransGen s.LiesIn (s.declarationOfType context) declaring) :
    s.Grants declaring context access := by
  have narrowest : s.Grants declaring context .private := ⟨declaring, lies, .inl rfl⟩
  exact narrowest.mono (Nat.zero_le _)

/-- The part of the test that looks at the accessing type tells whether the access is granted. -/
theorem decides_grants (acyclic : s.IsAcyclic) (isClass : s.isInterface declaring = false)
    {ms : Modifiers} (narrow : ms.isPublic = false) (context : TypeId) :
    Decides
      (if ms.isProtected || !ms.isPrivate then
        if (s.type declaring).package == (s.type (s.declarationOfType context)).package then pure true
        else s.isTypeInScope declaring context ms.isProtected
      else s.isTypeInScope declaring context false)
      (s.Grants declaring context ms.access) := by
  have scope : ∀ hierarchy, Decides (s.isTypeInScope declaring context hierarchy)
      (s.Around (s.HasMembers declaring hierarchy) (s.declarationOfType context)) :=
    fun hierarchy => decides_isTypeInScope acyclic (fun _ => isClass) context
  have packaged : ∀ hierarchy, Decides
      (if (s.type declaring).package == (s.type (s.declarationOfType context)).package then pure true
        else s.isTypeInScope declaring context hierarchy)
      (s.SharePackage declaring context ∨
        s.Around (s.HasMembers declaring hierarchy) (s.declarationOfType context)) := by
    intro hierarchy
    refine .ite (fun same => .pure (iff_of_true rfl (.inl (beq_iff_eq.1 same)))) fun other => ?_
    have apart : ¬ s.SharePackage declaring context := fun same => other (beq_iff_eq.2 same)
    exact (scope hierarchy).congr (by simp only [apart, false_or])
  simp only [Modifiers.access, narrow, Bool.false_eq_true, if_false]
  cases ms.isProtected with
  | true => exact packaged true
  | false =>
    cases ms.isPrivate with
    | true => exact scope false
    | false => exact packaged false

/-! ## Visible bindings -/

/-- The binding can be accessed from a type, or from no type at all: it is a variable of some code, or
its type is an interface, or its access is granted. -/
def Shows (s : Store) (b : BindingId) (context : Option TypeId) : Prop :=
  (s.declarationOf b).variableId?.any (fun v => !(s.variable v).isField) = true ∨
    ∃ owner, s.declaringTypeOf (s.declarationOf b) = some owner ∧
      ((s.modifiers (s.declarationOf b)).access = .public ∨
        s.isInterface (s.declarationOfType owner) = true ∨
        ∃ place, context = some place ∧ s.Grants (s.declarationOfType owner) place
          (s.modifiers (s.declarationOf b)).access)

theorem decides_isVisible (acyclic : s.IsAcyclic) (b : BindingId) (context : Option TypeId) :
    Decides (s.isVisible b context) (s.Shows b context) := by
  unfold isVisible Shows
  dsimp only
  refine .ite (fun isLocal => .pure (iff_of_true rfl (.inl isLocal))) fun isMember => ?_
  cases s.declaringTypeOf (s.declarationOf b) with
  | none => exact .pure (by simp [isMember])
  | some owner =>
    simp only [isMember, Option.some.injEq, exists_eq_left', Modifiers.access_eq_public]
    refine .ite (fun shown => .pure (iff_of_true rfl ?_)) fun hidden => ?_
    · exact .inr ((Bool.or_eq_true_iff.1 shown).imp_right .inl)
    · rw [Bool.or_eq_true, not_or, Bool.not_eq_true, Bool.not_eq_true] at hidden
      obtain ⟨narrow, isClass⟩ := hidden
      cases context with
      | none => exact .pure (by simp [narrow, isClass])
      | some place =>
        exact (decides_grants acyclic isClass narrow place).congr (by simp [narrow, isClass])

/-- In a sound store it is told whether a binding can be accessed. -/
theorem IsSound.answers_isVisible (sound : s.IsSound) (b : BindingId) (context : Option TypeId) :
    Answers (s.isVisible b context) :=
  (decides_isVisible ⟨sound.inherits, sound.lies⟩ b context).answers

/-! ## Other modifiers -/

/-- The store in which a declaration has these modifiers. -/
def withModifiers (s : Store) (b : BindingId) (ms : Modifiers) : Store :=
  match b with
  | .type t => s.modifyType t fun b => { b with modifiers := ms }
  | .variable v => s.modifyVariable v fun b => { b with modifiers := ms }
  | .method m => s.modifyMethod m fun b => { b with modifiers := ms }

section WithModifiers

variable {b : BindingId} {ms : Modifiers}

theorem type_withModifiers {β : Type} (property : TypeBinding → β)
    (same : ∀ b, property { b with modifiers := ms } = property b) (t : TypeId) :
    property ((s.withModifiers b ms).type t) = property (s.type t) := by
  cases b with
  | type u =>
    rcases type_modifyType_cases s u (fun b => { b with modifiers := ms }) t with
      kept | ⟨-, -, changed⟩
    · exact congrArg property kept
    · exact (congrArg property changed).trans (same _)
  | «variable» v => rfl
  | method m => rfl

theorem variable_withModifiers {β : Type} (property : VariableBinding → β)
    (same : ∀ b, property { b with modifiers := ms } = property b) (v : VariableId) :
    property ((s.withModifiers b ms).variable v) = property (s.variable v) := by
  cases b with
  | type u => rfl
  | «variable» w =>
    rcases variable_modifyVariable_cases s w (fun b => { b with modifiers := ms }) v with
      kept | ⟨-, -, changed⟩
    · exact congrArg property kept
    · exact (congrArg property changed).trans (same _)
  | method m => rfl

theorem method_withModifiers {β : Type} (property : MethodBinding → β)
    (same : ∀ b, property { b with modifiers := ms } = property b) (m : MethodId) :
    property ((s.withModifiers b ms).method m) = property (s.method m) := by
  cases b with
  | type u => rfl
  | «variable» v => rfl
  | method o =>
    rcases method_modifyMethod_cases s o (fun b => { b with modifiers := ms }) m with
      kept | ⟨-, -, changed⟩
    · exact congrArg property kept
    · exact (congrArg property changed).trans (same _)

theorem declarationOfType_withModifiers (t : TypeId) :
    (s.withModifiers b ms).declarationOfType t = s.declarationOfType t := by
  rw [declarationOfType, declarationOfType, type_withModifiers TypeBinding.genericType fun _ => rfl]

theorem isInterface_withModifiers (t : TypeId) :
    (s.withModifiers b ms).isInterface t = s.isInterface t := by
  rw [isInterface, isInterface, declarationOfType_withModifiers,
    type_withModifiers TypeBinding.kind fun _ => rfl]

theorem liesIn_withModifiers : (s.withModifiers b ms).LiesIn = s.LiesIn := by
  funext t u
  rw [LiesIn, LiesIn, type_withModifiers TypeBinding.declaringClass fun _ => rfl]

theorem inherits_withModifiers : (s.withModifiers b ms).Inherits = s.Inherits := by
  funext t u
  simp only [Inherits, declarationOfType_withModifiers,
    type_withModifiers TypeBinding.superclass fun _ => rfl,
    type_withModifiers TypeBinding.interfaces fun _ => rfl]

theorem stepsTowards_withModifiers : (s.withModifiers b ms).StepsTowards = s.StepsTowards := by
  funext sup t u
  simp only [StepsTowards, declarationOfType_withModifiers, isInterface_withModifiers,
    type_withModifiers TypeBinding.superclass fun _ => rfl,
    type_withModifiers TypeBinding.interfaces fun _ => rfl]

theorem IsAcyclic.withModifiers (acyclic : s.IsAcyclic) : (s.withModifiers b ms).IsAcyclic where
  inherits := by
    rw [inherits_withModifiers]
    exact acyclic.inherits
  lies := by
    rw [liesIn_withModifiers]
    exact acyclic.lies

theorem grants_withModifiers : (s.withModifiers b ms).Grants = s.Grants := by
  have members : (s.withModifiers b ms).HasMembers = s.HasMembers := by
    funext declaring hierarchy t
    rw [HasMembers, HasMembers, stepsTowards_withModifiers]
  have around : (s.withModifiers b ms).Around = s.Around := by
    funext P t
    rw [Around, Around, liesIn_withModifiers]
  have share : (s.withModifiers b ms).SharePackage = s.SharePackage := by
    funext declaring context
    rw [SharePackage, SharePackage, declarationOfType_withModifiers,
      type_withModifiers TypeBinding.package fun _ => rfl,
      type_withModifiers TypeBinding.package fun _ => rfl]
  funext declaring context access
  cases access <;> simp only [Grants, members, around, share, declarationOfType_withModifiers]

theorem declarationOf_withModifiers (d : BindingId) :
    (s.withModifiers b ms).declarationOf d = s.declarationOf d := by
  cases d with
  | type t => exact congrArg BindingId.type (declarationOfType_withModifiers t)
  | «variable» v => rfl
  | method m => rfl

theorem declaringTypeOf_withModifiers (d : BindingId) :
    (s.withModifiers b ms).declaringTypeOf d = s.declaringTypeOf d := by
  cases d with
  | type t =>
    rw [declaringTypeOf, declaringTypeOf,
      type_withModifiers TypeBinding.declaringClass fun _ => rfl]
  | «variable» v => exact variable_withModifiers VariableBinding.declaringClass (fun _ => rfl) v
  | method m => exact method_withModifiers MethodBinding.declaringClass (fun _ => rfl) m

theorem modifiers_withModifiers (h : s.Has b) : (s.withModifiers b ms).modifiers b = ms := by
  cases b with
  | type t =>
    have inside : t.index < s.types.size := h
    simp [withModifiers, modifyType, modifiers, Store.type, Array.getD, inside,
      Array.getElem_modify_self]
  | «variable» v =>
    exact congrArg VariableBinding.modifiers (variable_modifyVariable_of_has h _)
  | method m => exact congrArg MethodBinding.modifiers (method_modifyMethod_of_has h _)

theorem withModifiers_of_not_has (h : ¬ s.Has b) : s.withModifiers b ms = s := by
  cases b with
  | type t =>
    have outside : ¬ t.index < s.types.size := h
    simp [withModifiers, modifyType, Array.modify, Array.modifyM, outside]
  | «variable» v =>
    have outside : ¬ v.index < s.vars.size := h
    simp [withModifiers, modifyVariable, Array.modify, Array.modifyM, outside]
  | method m => 
    have outside : ¬ m.index < s.methods.size := h
    simp [withModifiers, modifyMethod, Array.modify, Array.modifyM, outside]

/-- Whether a binding of the store can be accessed once its declaration has other modifiers. -/
theorem shows_withModifiers (known : s.Has (s.declarationOf b)) (context : Option TypeId) :
    (s.withModifiers (s.declarationOf b) ms).Shows b context ↔
      (s.declarationOf b).variableId?.any (fun v => !(s.variable v).isField) = true ∨
        ∃ owner, s.declaringTypeOf (s.declarationOf b) = some owner ∧
          (ms.access = .public ∨ s.isInterface (s.declarationOfType owner) = true ∨
            ∃ place, context = some place ∧
              s.Grants (s.declarationOfType owner) place ms.access) := by
  simp only [Shows, declarationOf_withModifiers, declaringTypeOf_withModifiers,
    declarationOfType_withModifiers, isInterface_withModifiers, grants_withModifiers,
    modifiers_withModifiers known, variable_withModifiers VariableBinding.isField fun _ => rfl]

end WithModifiers

/-- Wider access shows a binding wherever narrower access does. -/
theorem shows_of_wider {b : BindingId} {context : Option TypeId} {ms ms' : Modifiers}
    (wider : ms.access ≤ ms'.access)
    (shown : (s.withModifiers (s.declarationOf b) ms).Shows b context) :
    (s.withModifiers (s.declarationOf b) ms').Shows b context := by
  by_cases known : s.Has (s.declarationOf b)
  · rw [shows_withModifiers known] at shown ⊢
    refine shown.imp_right ?_
    rintro ⟨owner, declares, isPublic | isInterface | ⟨place, here, granted⟩⟩
    · have widest : ms'.access = .public := by
        rw [isPublic] at wider
        revert wider
        cases ms'.access <;> decide
      exact ⟨owner, declares, .inl widest⟩
    · exact ⟨owner, declares, .inr (.inl isInterface)⟩
    · exact ⟨owner, declares, .inr (.inr ⟨place, here, granted.mono wider⟩)⟩
  · rw [withModifiers_of_not_has known] at shown ⊢
    exact shown

/-- Wider access of a declaration takes it from no type: what can be accessed as a private member can
be as a member of the package, and so on up to a public one. A type in another one of its package can
access what that one can. In particular every member of a type, a private one as well, can be accessed
from all types in this type, however deep. -/
theorem isVisible_widens (acyclic : s.IsAcyclic) :
    (∀ b context ms ms', ms.access ≤ ms'.access →
      (s.withModifiers (s.declarationOf b) ms).isVisible b context = .ok true →
        (s.withModifiers (s.declarationOf b) ms').isVisible b context = .ok true) ∧
    (∀ b outer inner, (s.type outer).genericType = none → (s.type inner).genericType = none →
      s.LiesIn inner outer → (s.type inner).package = (s.type outer).package →
        s.isVisible b (some outer) = .ok true → s.isVisible b (some inner) = .ok true) ∧
    ∀ b owner inner, s.declaringTypeOf (s.declarationOf b) = some owner →
      (s.type owner).genericType = none → (s.type inner).genericType = none →
        Relation.ReflTransGen s.LiesIn inner owner → s.isVisible b (some inner) = .ok true := by
  have itself : ∀ {t}, (s.type t).genericType = none → s.declarationOfType t = t := by
    intro t declared
    rw [declarationOfType, declared]
    rfl
  refine ⟨?_, ?_, ?_⟩
  · intro b context ms ms' wider visible
    rw [(decides_isVisible acyclic.withModifiers b context).eq_true_iff] at visible ⊢
    exact shows_of_wider wider visible
  · intro b outer inner declared declared' lies package visible
    rw [(decides_isVisible acyclic b _).eq_true_iff] at visible ⊢
    refine visible.imp_right ?_
    rintro ⟨owner, declares, isPublic | isInterface | ⟨_, ⟨⟩, granted⟩⟩
    · exact ⟨owner, declares, .inl isPublic⟩
    · exact ⟨owner, declares, .inr (.inl isInterface)⟩
    · rw [← itself declared, ← itself declared'] at lies package
      exact ⟨owner, declares, .inr (.inr ⟨inner, rfl, granted.nested lies package⟩)⟩
  · intro b owner inner declares declared declared' lies
    rw [(decides_isVisible acyclic b _).eq_true_iff]
    rw [← itself declared, ← itself declared'] at lies
    exact .inr ⟨owner, declares, .inr (.inr ⟨inner, rfl, grants_of_lies _ lies⟩)⟩

/-- A class in a class in a class with a private field, and a subclass of the outermost one in another
package. -/
def nested : Store where
  types := #[{ name := "Outer", package := "shapes" },
    { name := "Middle", package := "shapes", declaringClass := some ⟨0⟩ },
    { name := "Inner", package := "shapes", declaringClass := some ⟨1⟩ },
    { name := "Other", package := "others", superclass := some ⟨0⟩ }]
  vars := #[{ name := "secret", modifiers := .private, isField := true, declaringClass := some ⟨0⟩ }]

theorem isVisible_widens_nested :
    nested.IsAcyclic ∧
      (Modifiers.private.access ≤ Modifiers.none.access ∧
        (nested.withModifiers (.variable ⟨0⟩) .private).isVisible (.variable ⟨0⟩) (some ⟨2⟩) =
          .ok true ∧
        (nested.withModifiers (.variable ⟨0⟩) .none).isVisible (.variable ⟨0⟩) (some ⟨2⟩) =
          .ok true) ∧
      (nested.LiesIn ⟨2⟩ ⟨1⟩ ∧ nested.isVisible (.variable ⟨0⟩) (some ⟨1⟩) = .ok true ∧
        nested.isVisible (.variable ⟨0⟩) (some ⟨2⟩) = .ok true) ∧
      Relation.ReflTransGen nested.LiesIn ⟨2⟩ ⟨0⟩ ∧
        nested.isVisible (.variable ⟨0⟩) (some ⟨2⟩) = .ok true := by
  have acyclic : nested.IsAcyclic :=
    ⟨not_inherits_of_listed (by decide), not_liesIn_of_listed (by decide)⟩
  have inMiddle : nested.LiesIn ⟨2⟩ ⟨1⟩ := rfl
  have inOuter : nested.LiesIn ⟨1⟩ ⟨0⟩ := rfl
  have along : Relation.ReflTransGen nested.LiesIn ⟨2⟩ ⟨0⟩ :=
    (Relation.ReflTransGen.single inOuter).head inMiddle
  obtain ⟨widens, nests, holds⟩ := isVisible_widens acyclic
  have asPrivate : (nested.withModifiers (.variable ⟨0⟩) .private).isVisible (.variable ⟨0⟩)
      (some ⟨2⟩) = .ok true := by decide
  have wider : Modifiers.private.access ≤ Modifiers.none.access := by decide
  have fromMiddle : nested.isVisible (.variable ⟨0⟩) (some ⟨1⟩) = .ok true := by decide
  exact ⟨acyclic,
    ⟨wider, asPrivate, widens (.variable ⟨0⟩) (some ⟨2⟩) .private .none wider asPrivate⟩,
    ⟨inMiddle, fromMiddle, nests (.variable ⟨0⟩) ⟨1⟩ ⟨2⟩ rfl rfl inMiddle rfl fromMiddle⟩,
    along, holds (.variable ⟨0⟩) ⟨0⟩ ⟨2⟩ rfl rfl rfl along⟩

-- From the subclass in the other package the field can be accessed only if it is protected or public.
example : [.private, .none, ⟨4⟩, .public].map (fun ms =>
    (nested.withModifiers (.variable ⟨0⟩) ms).isVisible (.variable ⟨0⟩) (some ⟨3⟩)) =
      [.ok false, .ok false, .ok true, .ok true] := by
  decide

end Store

end JavaScope
