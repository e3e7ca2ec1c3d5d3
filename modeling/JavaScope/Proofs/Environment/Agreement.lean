import JavaScope.Binding.Visibility
import JavaScope.Proofs.Environment.Fuel

/-!
# What grown stores agree on

Erasures, signatures and the check of access follow the links of a store, with as much fuel as the
store has bindings. A store that has grown from a closed one has the same links below the types of
the closed one and at least as much fuel as these types need, so all such stores give the same
answers, and the same faults.
-/

namespace JavaScope

/-! ## Grown stores -/

/-- Both stores have grown from a closed one. -/
structure Store.Apart (s₀ s s' : Store) : Prop where
  closed : s₀.Closed
  first : s₀.Grows s
  second : s₀.Grows s'

namespace Store

theorem Grows.size_le_size {s s' : Store} (h : s.Grows s') : s.types.size ≤ s'.size :=
  Nat.le_trans h.size (by rw [Store.size]; omega)

namespace Apart

variable {s₀ s s' : Store} (h : s₀.Apart s s') {t : TypeId}

include h

theorem type_eq (ht : s₀.Has (.type t)) : s'.type t = s.type t := by
  rw [h.first.kept t ht, h.second.kept t ht]

theorem variable_eq (v : VariableId) : s'.variable v = s.variable v := by
  rw [h.first.variable_eq, h.second.variable_eq]

theorem method_eq (m : MethodId) : s'.method m = s.method m := by
  rw [h.first.method_eq, h.second.method_eq]

/-- What a type links to is in the closed store. -/
theorem has_of_link (ht : s₀.Has (.type t)) {u : TypeId} (hu : u ∈ (s.type t).links) :
    s₀.Has (.type u) := by
  rw [h.first.kept t ht] at hu
  exact h.closed.types t u hu

theorem declarationOfType_eq (ht : s₀.Has (.type t)) :
    s'.declarationOfType t = s.declarationOfType t := by
  rw [declarationOfType, declarationOfType, h.type_eq ht]

theorem has_declarationOfType (ht : s₀.Has (.type t)) :
    s₀.Has (.type (s.declarationOfType t)) := by
  rw [declarationOfType]
  cases generic : (s.type t).genericType with
  | none => exact ht
  | some g => exact h.has_of_link ht (by simp [TypeBinding.links, generic])

theorem isInterface_eq (ht : s₀.Has (.type t)) : s'.isInterface t = s.isInterface t := by
  rw [isInterface, isInterface, h.declarationOfType_eq ht, h.type_eq (h.has_declarationOfType ht)]

end Apart

/-! ## Erasures and signatures -/

section Closed

variable {s₀ s s' : Store} {t : TypeId} (closed : s₀.Closed)

include closed

theorem follows_erasureWith : s₀.Follows Store.erasureWith where
  start _ _ _ _ _ := .endless _
  step {s s'} first second {fuel fuel'} ih t ht := by
    have h : s₀.Apart s s' := ⟨closed, first, second⟩
    have follow : ∀ u, u ∈ (s.type t).links →
        Refines (s.erasureWith fuel u) (s'.erasureWith fuel' u) :=
      fun u hu => ih u (h.has_of_link ht hu)
    simp only [Store.erasureWith, h.type_eq ht]
    split
    iterate 2
      split
      · exact .refl _
      · next bounds =>
        refine .bind (.refl _) fun u hu => follow u ?_
        simp [TypeBinding.links, bounds, needed_eq_ok.1 hu]
    · refine .bind (.refl _) fun u hu => .bind (follow u ?_) fun _ _ => .refl _
      simp [TypeBinding.links, needed_eq_ok.1 hu]
    · split
      · next generic => exact follow _ (by simp [TypeBinding.links, generic])
      · exact .refl _

theorem erasure_eq (h : s₀.Grows s) (h' : s₀.Grows s') (ht : s₀.Has (.type t)) :
    s.erasure t = s'.erasure t := by
  have fuel := h.size_le_size
  have fuel' := h'.size_le_size
  exact (follows_erasureWith closed).eq h h' (by omega) (by omega) ht

theorem signature_eq (h : s₀.Grows s) (h' : s₀.Grows s') {b : BindingId}
    (hb : ∀ t, b = .type t → s₀.Has (.type t)) : s.signature b = s'.signature b := by
  have apart : s₀.Apart s s' := ⟨closed, h, h'⟩
  cases b with
  | type t => simp only [Store.signature, apart.type_eq (hb t rfl)]
  | «variable» v => simp only [Store.signature, apart.variable_eq]
  | method m =>
    have same : ∀ s s', s₀.Apart s s' → Refines (s.signature (.method m)) (s'.signature (.method m)) := by
      intro s s' apart
      simp only [Store.signature, signatureOfMethod, apart.method_eq]
      refine .bind (.mapM fun each member => .bind (.refl _) fun t ht => .of_eq ?_) fun _ _ => .refl _
      refine erasure_eq closed apart.first apart.second (closed.methods m t ?_)
      have member' : some t ∈ (s.method m).parameterTypes := by
        rw [← needed_eq_ok.1 ht]
        exact member
      rw [apart.first.method_eq] at member'
      simp [MethodBinding.links, member']
    exact (same s s' apart).antisymm (same s' s ⟨closed, h', h⟩)

/-! ## Access -/

theorem follows_isSupertypeWith {sup : TypeId} (hsup : s₀.Has (.type sup)) :
    s₀.Follows fun s fuel t => s.isSupertypeWith sup fuel t where
  start _ _ fuel t _ := by
    unfold Store.isSupertypeWith
    exact .ite (fun _ => .refl _) fun _ => .endless _
  step {s s'} first second {fuel fuel'} ih t ht := by
    have h : s₀.Apart s s' := ⟨closed, first, second⟩
    have follow : ∀ u, u ∈ (s.type t).links → Refines
        (s.isSupertypeWith sup fuel (s.declarationOfType u))
        (s'.isSupertypeWith sup fuel' (s'.declarationOfType u)) := by
      intro u hu
      have there := h.has_of_link ht hu
      rw [h.declarationOfType_eq there]
      exact ih _ (h.has_declarationOfType there)
    unfold Store.isSupertypeWith
    refine .ite (fun _ => .refl _) fun _ => ?_
    simp only [h.type_eq ht, h.isInterface_eq hsup]
    have rest : ∀ found : Bool, Refines
        (if found then pure true else if s.isInterface sup then
          (s.type t).interfaces.anyM fun each => do
            s.isSupertypeWith sup fuel (s.declarationOfType (← needed each)) else pure false)
        (if found then pure true else if s.isInterface sup then
          (s.type t).interfaces.anyM fun each => do
            s'.isSupertypeWith sup fuel' (s'.declarationOfType (← needed each)) else pure false) := by
      intro found
      refine .ite (fun _ => .refl _) fun _ => .ite (fun _ => .anyM fun each member => ?_) fun _ => .refl _
      refine .bind (.refl _) fun u hu => follow u ?_
      have member' : some u ∈ (s.type t).interfaces := by
        rw [← needed_eq_ok.1 hu]
        exact member
      simp [TypeBinding.links, member']
    split
    · next up => exact .bind (follow _ (by simp [TypeBinding.links, up])) fun found _ => rest found
    · exact .bind (.refl _) fun found _ => rest found

theorem isSupertype_eq (h : s₀.Grows s) (h' : s₀.Grows s') {sup : TypeId}
    (hsup : s₀.Has (.type sup)) (ht : s₀.Has (.type t)) :
    s.isSupertype sup (some t) = s'.isSupertype sup (some t) := by
  have fuel := h.size
  have fuel' := h'.size
  exact (follows_isSupertypeWith closed hsup).eq h h' (by omega) (by omega) ht

theorem follows_isEnclosedWith {declaring : TypeId} (hdeclaring : s₀.Has (.type declaring))
    (hierarchy : Bool) :
    s₀.Follows fun s fuel t => s.isEnclosedWith declaring hierarchy fuel (some t) where
  start _ _ fuel t _ := by
    unfold Store.isEnclosedWith
    exact .ite (fun _ => .refl _) fun _ => .endless _
  step {s s'} first second {fuel fuel'} ih t ht := by
    have h : s₀.Apart s s' := ⟨closed, first, second⟩
    unfold Store.isEnclosedWith
    refine .ite (fun _ => .refl _) fun _ => ?_
    have rest : ∀ inherits : Bool, Refines
        (if inherits then pure true else
          s.isEnclosedWith declaring hierarchy fuel (s.type t).declaringClass)
        (if inherits then pure true else
          s'.isEnclosedWith declaring hierarchy fuel' (s'.type t).declaringClass) := by
      refine fun inherits => .ite (fun _ => .refl _) fun _ => ?_
      rw [h.type_eq ht]
      cases owner : (s.type t).declaringClass with
      | none => cases fuel <;> cases fuel' <;> exact .refl _
      | some u => exact ih u (h.has_of_link ht (by simp [TypeBinding.links, owner]))
    refine .ite (fun _ => ?_) fun _ => .bind (.refl _) fun inherits _ => rest inherits
    rw [isSupertype_eq closed first second hdeclaring ht]
    exact .bind (.refl _) fun inherits _ => rest inherits

theorem isTypeInScope_eq (h : s₀.Grows s) (h' : s₀.Grows s') {declaring context : TypeId}
    (hdeclaring : s₀.Has (.type declaring)) (hcontext : s₀.Has (.type context)) (hierarchy : Bool) :
    s.isTypeInScope declaring context hierarchy = s'.isTypeInScope declaring context hierarchy := by
  have apart : s₀.Apart s s' := ⟨closed, h, h'⟩
  have fuel := h.size
  have fuel' := h'.size
  rw [Store.isTypeInScope, Store.isTypeInScope, apart.declarationOfType_eq hcontext]
  exact (follows_isEnclosedWith closed hdeclaring hierarchy).eq h h' (by omega) (by omega)
    (apart.has_declarationOfType hcontext)

end Closed

namespace Apart

variable {s₀ s s' : Store} (h : s₀.Apart s s') {b : BindingId}
  (hb : ∀ t, b = .type t → s₀.Has (.type t))

include h hb

theorem declarationOf_eq : s'.declarationOf b = s.declarationOf b := by
  cases b with
  | type t => exact congrArg BindingId.type (h.declarationOfType_eq (hb t rfl))
  | «variable» v => rfl
  | method m => rfl

theorem has_declarationOf : ∀ t, s.declarationOf b = .type t → s₀.Has (.type t) := by
  intro t ht
  cases b with
  | type u =>
    cases ht
    exact h.has_declarationOfType (hb u rfl)
  | «variable» v => cases ht
  | method m => cases ht

/-- The owner of a binding is the same in both stores, and in the closed one. -/
theorem declaringTypeOf_eq : s'.declaringTypeOf b = s.declaringTypeOf b ∧
    ∀ owner ∈ s.declaringTypeOf b, s₀.Has (.type owner) := by
  cases b with
  | type t =>
    refine ⟨?_, ?_⟩
    · rw [declaringTypeOf, declaringTypeOf, h.type_eq (hb t rfl)]
    · rintro _ ⟨⟩
      cases owner : (s.type t).declaringClass with
      | none => exact hb t rfl
      | some u => exact h.has_of_link (hb t rfl) (by simp [TypeBinding.links, owner])
  | «variable» v =>
    refine ⟨congrArg VariableBinding.declaringClass (h.variable_eq v), fun owner ho => ?_⟩
    have ho' : (s.variable v).declaringClass = some owner := ho
    rw [h.first.variable_eq] at ho'
    exact h.closed.vars v owner (by simp [VariableBinding.links, ho'])
  | method m =>
    refine ⟨congrArg MethodBinding.declaringClass (h.method_eq m), fun owner ho => ?_⟩
    have ho' : (s.method m).declaringClass = some owner := ho
    rw [h.first.method_eq] at ho'
    exact h.closed.methods m owner (by simp [MethodBinding.links, ho'])

theorem modifiers_eq : s'.modifiers b = s.modifiers b := by
  cases b with
  | type t => exact congrArg TypeBinding.modifiers (h.type_eq (hb t rfl))
  | «variable» v => exact congrArg VariableBinding.modifiers (h.variable_eq v)
  | method m => exact congrArg MethodBinding.modifiers (h.method_eq m)

theorem isVisible_eq {context : Option TypeId} (hcontext : ∀ t ∈ context, s₀.Has (.type t)) :
    s.isVisible b context = s'.isVisible b context := by
  have hdeclaration := h.has_declarationOf hb
  obtain ⟨sameOwner, hasOwner⟩ := h.declaringTypeOf_eq hdeclaration
  simp only [Store.isVisible, h.declarationOf_eq hb, sameOwner, h.variable_eq,
    h.modifiers_eq hdeclaration]
  congr 1
  cases owner : s.declaringTypeOf (s.declarationOf b) with
  | none => rfl
  | some owner' =>
    have hasOwner' := hasOwner owner' owner
    have hasDeclaring := h.has_declarationOfType hasOwner'
    simp only [h.declarationOfType_eq hasOwner', h.isInterface_eq hasDeclaring]
    congr 1
    cases context with
    | none => rfl
    | some place =>
      have hasPlace := hcontext place rfl
      simp only [h.declarationOfType_eq hasPlace, h.type_eq hasDeclaring,
        h.type_eq (h.has_declarationOfType hasPlace),
        isTypeInScope_eq h.closed h.first h.second hasDeclaring hasPlace]

end Apart

/-! ## Agreement -/

variable {s₀ s s' : Store} {b : BindingId}

theorem signature_agree (closed : s₀.Closed) (h : s₀.Grows s) (h' : s₀.Grows s')
    (hb : ∀ t, b = .type t → s₀.Has (.type t)) {x x' : String} (hx : s.signature b = .ok x)
    (hx' : s'.signature b = .ok x') : x = x' := by
  rw [signature_eq closed h h' hb, hx'] at hx
  cases hx
  rfl

theorem isVisible_agree (closed : s₀.Closed) (h : s₀.Grows s) (h' : s₀.Grows s')
    (hb : ∀ t, b = .type t → s₀.Has (.type t)) {place : Option TypeId}
    (hplace : ∀ t ∈ place, s₀.Has (.type t)) {x x' : Bool} (hx : s.isVisible b place = .ok x)
    (hx' : s'.isVisible b place = .ok x') : x = x' := by
  have apart : s₀.Apart s s' := ⟨closed, h, h'⟩
  rw [apart.isVisible_eq hb hplace, hx'] at hx
  cases hx
  rfl

/-! ## What a signature tells -/

/-- The first letter of the signatures of bindings of a kind. -/
def kindLetter : BindingKind → Char
  | .type => 'T'
  | .variable => 'V'
  | .method => 'M'

theorem signature_eq_ok {x : String} (hx : s.signature b = .ok x) :
    ∃ rest, x.toList = kindLetter b.kind :: ((s.name b).toList ++ rest) ∧
      (b.kind = .method ∧ (∃ tail, rest = '(' :: tail) ∨ b.kind ≠ .method ∧ rest = []) := by
  cases b with
  | type t =>
    cases hx
    exact ⟨[], by simp [kindLetter, BindingId.kind, Store.name], .inr ⟨nofun, rfl⟩⟩
  | «variable» v =>
    cases hx
    exact ⟨[], by simp [kindLetter, BindingId.kind, Store.name], .inr ⟨nofun, rfl⟩⟩
  | method m =>
    simp only [Store.signature, signatureOfMethod] at hx
    cases erasures : (s.method m).parameterTypes.mapM fun each => do s.erasure (← needed each) with
    | error f =>
      rw [erasures] at hx
      cases hx
    | ok texts =>
      rw [erasures] at hx
      cases hx
      exact ⟨'(' :: ((String.intercalate "," texts).toList ++ [')']),
        by simp [kindLetter, BindingId.kind, Store.name], .inl ⟨rfl, _, rfl⟩⟩

theorem takeWhile_append_paren {name : List Char} (h : '(' ∉ name) (tail : List Char) :
    (name ++ '(' :: tail).takeWhile (· != '(') = name := by
  rw [List.takeWhile_append_of_pos fun c hc => ?_]
  · simp
  · rw [bne_iff_ne]
    rintro rfl
    exact h hc

/-- Bindings of one signature have one kind, and one name unless a method's name is none. -/
theorem kind_and_name_eq_of_signature {d : BindingId} {x : String}
    (names : ∀ m, '(' ∉ (s.method m).name.toList) (names' : ∀ m, '(' ∉ (s'.method m).name.toList)
    (hb : s.signature b = .ok x) (hd : s'.signature d = .ok x) :
    b.kind = d.kind ∧ s.name b = s'.name d := by
  obtain ⟨rest, hx, hrest⟩ := signature_eq_ok hb
  obtain ⟨rest', hx', hrest'⟩ := signature_eq_ok hd
  rw [hx, List.cons.injEq] at hx'
  obtain ⟨letter, same⟩ := hx'
  have kind : b.kind = d.kind := by
    revert letter
    cases b.kind <;> cases d.kind <;> simp [kindLetter]
  refine ⟨kind, ?_⟩
  rcases hrest with ⟨method, tail, rfl⟩ | ⟨other, rfl⟩
  · rcases hrest' with ⟨method', tail', rfl⟩ | ⟨other', -⟩
    · cases b with
      | method m =>
        cases d with
        | method o =>
          apply String.toList_injective
          show (s.method m).name.toList = (s'.method o).name.toList
          rw [← takeWhile_append_paren (names m) tail, ← takeWhile_append_paren (names' o) tail']
          exact congrArg _ same
        | type _ => cases method'
        | «variable» _ => cases method'
      | type _ => cases method
      | «variable» _ => cases method
    · exact absurd (kind ▸ method) other'
  · rcases hrest' with ⟨method', -⟩ | ⟨-, rfl⟩
    · exact absurd (kind.symm ▸ method') other
    · exact String.toList_injective (by simpa using same)

end Store

end JavaScope
