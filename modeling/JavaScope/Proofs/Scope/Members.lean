import JavaScope.Scope.Members
import JavaScope.Proofs.Environment.Growth
import JavaScope.Proofs.Scope.Walk

/-!
# The courses of the searches around a name

The local declarations around a node and the members of a type with its supertypes are offered along
a course each. The search outwards through the enclosing types has none as a whole: a stop among the
members of a type does not end it.
-/

namespace JavaScope

section Course

variable {I : Environment → Prop} {J : Offer → Prop} {typeOf : Typing}

/-- What environments with `I` declare may be offered in each of them. -/
structure MayOffer (I : Environment → Prop) (J : Offer → Prop) : Prop where
  declared : ∀ e e', I e → I e' → ∀ n, J ⟨e'.store, e.bindingOf n⟩
  members : ∀ e e', I e → I e' → ∀ t, ∀ b ∈ membersOf e.store t, J ⟨e'.store, some b⟩

theorem MayOffer.constants (may : MayOffer I J) (e e' : Environment) (t : TypeId) (he : I e)
    (he' : I e') : ∀ v ∈ e.store.enumConstants t, J ⟨e'.store, some (.variable v)⟩ := by
  intro v hv
  have hfield := (List.mem_filter.1 hv).1
  apply may.members e e' he he' (e.store.declarationOfType t) _
  exact List.mem_append_left _ (List.mem_append_left _ (List.mem_map_of_mem hfield))

theorem hasCourse_collectLocal (may : MayOffer I J) (keeps : ∀ n, Keeps I (typeOf n)) (n : Node)
    (position : Nat) (flags : Flags) :
    HasCourse I J id fun _ _ => collectLocal typeOf n position flags := by
  refine .ite ?_ (.pure rfl)
  cases n.bodyDeclaration with
  | none => exact .pure rfl
  | some declaration =>
    refine .get_bind (fun _ _ e =>
      LocalWalk.run typeOf ⟨e.context.unit, e.bindingOf, position, flags⟩ declaration) fun e he => ?_
    exact LocalWalk.hasCourse_run keeps (fun c e' he' => may.declared e e' he he' c)
      may.constants declaration

theorem hasCourse_offerMembers (may : MayOffer I J) (flags : Flags) (t : TypeId) :
    HasCourse I J id fun _ _ => offerMembers flags t := by
  refine .read_bind fun e he => .offerAll fun b hb e' he' => ?_
  apply may.members e e' he he' t b
  simp only [membersOf, List.mem_append] at hb ⊢
  rcases hb with (hb | hb) | hb
  · left; left
    split at hb
    · exact hb
    · cases hb
  · left; right
    split at hb
    · obtain ⟨m, hm, rfl⟩ := List.mem_map.1 hb
      exact List.mem_map_of_mem (List.mem_filter.1 hm).1
    · cases hb
  · right
    split at hb
    · exact hb
    · cases hb

theorem hasCourse_visitEach
    {visit : ∀ (σ : Type) [Request σ], Option TypeId → List TypeId → SearchM σ (Bool × List TypeId)}
    (h : ∀ t visited, HasCourse I J Prod.fst fun σ _ => visit σ t visited)
    (types : List (Option TypeId)) (visited : List TypeId) :
    HasCourse I J Prod.fst fun σ _ => visitEach (visit σ) types visited := by
  induction types generalizing visited with
  | nil => exact .pure rfl
  | cons t rest ih =>
    refine (h t visited).bind (fun σ _ found =>
      if found.1 then pure (true, found.2) else visitEach (visit σ) rest found.2) ?_ ?_
    · rintro ⟨_, visited⟩ ⟨⟩
      exact ⟨(true, visited), rfl, fun _ _ => rfl⟩
    · rintro ⟨_, visited⟩ ⟨⟩
      exact ih visited

theorem hasCourse_collectInheritedWith (may : MayOffer I J)
    (keeps : ∀ t, Keeps I (supertypes t)) (flags : Flags) (fuel : Nat) (t : Option TypeId)
    (visited : List TypeId) :
    HasCourse I J Prod.fst fun _ _ => collectInheritedWith flags fuel t visited := by
  induction fuel generalizing t visited with
  | zero =>
    simp only [collectInheritedWith]
    refine (HasCourse.ofExcept _).bind_silent fun t => .read_bind fun e _ => ?_
    exact .ite (.pure rfl) (.throw .endless)
  | succ fuel ih =>
    simp only [collectInheritedWith]
    refine (HasCourse.ofExcept _).bind_silent fun t => .read_bind fun e _ => ?_
    refine .ite (.pure rfl) ?_
    refine (hasCourse_offerMembers may flags _).bind (fun σ _ stopped =>
      if stopped then pure (true, _) else
        SearchM.lift (supertypes _) >>= fun ups => visitEach _ ups _) ?_ ?_
    · rintro _ ⟨⟩
      exact ⟨_, rfl, fun _ _ => rfl⟩
    · rintro _ ⟨⟩
      apply (HasCourse.lift (keeps _)).bind_silent
      intro ups
      exact hasCourse_visitEach (fun t visited => ih t visited) ups _

theorem hasCourse_collectInherited (may : MayOffer I J) (keeps : ∀ t, Keeps I (supertypes t))
    (flags : Flags) (t : TypeId) (visited : List TypeId) :
    HasCourse I J Prod.fst fun _ _ => collectInherited flags t visited :=
  .read_bind fun _ _ => hasCourse_collectInheritedWith may keeps flags _ (some t) visited

end Course

/-- No search offers anything that is ruled out here. -/
theorem MayOffer.anything (I : Environment → Prop) : MayOffer I fun _ => True :=
  ⟨fun _ _ _ _ _ => trivial, fun _ _ _ _ _ _ _ => trivial⟩

end JavaScope
