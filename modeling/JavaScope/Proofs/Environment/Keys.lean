import JavaScope.Proofs.Environment.Agreement
import JavaScope.Proofs.Environment.Closed

/-!
# Keys that do not move

A key is put together from the keys of what a binding refers to. The types that are derived from
others and those that are recovered by name are added behind the types that are there, which keep
their links: so a key that is told once is told again, however far the store has grown.
-/

namespace JavaScope

namespace Store

/-! ## Keys in a grown store -/

/-- With some fuel each, the second store tells the keys that the first one tells. -/
structure KeepsKeys (s s' : Store) (fuel fuel' : Nat) : Prop where
  types : ∀ t, s.Has (.type t) → Refines (s.keyWith fuel (.type t)) (s'.keyWith fuel' (.type t))
  methods : ∀ m, Refines (s.keyWith fuel (.method m)) (s'.keyWith fuel' (.method m))

namespace KeepsKeys

variable {s s' : Store} {fuel fuel' : Nat} (closed : s.Closed) (grows : s.Grows s')
  (keeps : s.KeepsKeys s' fuel fuel')

include keeps

theorem refines_list (ts : List (Option TypeId)) (has : ∀ t ∈ ts.filterMap id, s.Has (.type t)) :
    Refines (ts.mapM fun each => do s.keyWith fuel (.type (← needed each)))
      (ts.mapM fun each => do s'.keyWith fuel' (.type (← needed each))) := by
  refine .mapM fun each member => .bind (.refl _) fun t given => keeps.types t (has t ?_)
  rw [needed_eq_ok.1 given] at member
  exact List.mem_filterMap.2 ⟨some t, member, rfl⟩

include closed grows

theorem refines_type {t : TypeId} (has : s.Has (.type t)) :
    Refines (s.keyWith (fuel + 1) (.type t)) (s'.keyWith (fuel' + 1) (.type t)) := by
  have linked : ∀ u ∈ (s.type t).links, s.Has (.type u) := closed.types t
  simp only [keyWith, grows.kept t has]
  refine .ite (fun _ => .refl _) fun _ => .ite (fun _ => ?_) fun _ => ?_
  · refine .bind (.refl _) fun u element => .bind (keeps.types u (linked u ?_)) fun _ _ => .refl _
    simp [TypeBinding.links, needed_eq_ok.1 element]
  · split
    · next generic given =>
      refine .bind (keeps.refines_list _ fun u member => linked u ?_) fun _ _ =>
        .bind (keeps.types generic (linked generic ?_)) fun _ _ => .refl _
      · simp only [TypeBinding.links, List.mem_append]
        tauto
      · simp [TypeBinding.links, given]
    · refine .ite (fun _ => .bind ?_ fun _ _ => .refl _) fun _ =>
        .ite (fun _ => .bind ?_ fun _ _ => .refl _) fun _ => .refl _
      -- type parameters and local types are told from the method or the type around them
      all_goals
        split
        · exact keeps.methods _
        · next c _ declared => exact keeps.types c (linked c (by simp [TypeBinding.links, declared]))
        · exact .refl _

theorem refines_method (m : MethodId) :
    Refines (s.keyWith (fuel + 1) (.method m)) (s'.keyWith (fuel' + 1) (.method m)) := by
  have linked : ∀ u ∈ (s.method m).links, s.Has (.type u) := closed.methods m
  have parameters := keeps.refines_list (s.method m).parameterTypes fun u member =>
    linked u (by simp only [MethodBinding.links, List.mem_append]; tauto)
  simp only [keyWith, grows.method_eq]
  split
  · next c declared =>
    refine .bind (keeps.types c (linked c (by simp [MethodBinding.links, declared]))) fun _ _ => ?_
    exact .bind parameters fun _ _ => .refl _
  · exact .bind (.refl _) fun _ _ => .bind parameters fun _ _ => .refl _

end KeepsKeys

variable {s s' : Store} (closed : s.Closed) (grows : s.Grows s')

include closed grows

/-- With more fuel, a grown store tells more keys. -/
theorem keepsKeys {fuel fuel' : Nat} (le : fuel ≤ fuel') : s.KeepsKeys s' fuel fuel' := by
  induction fuel generalizing fuel' with
  | zero => exact ⟨fun t _ => .endless _, fun m => .endless _⟩
  | succ fuel ih =>
    obtain ⟨fuel', rfl⟩ : ∃ k, fuel' = k + 1 := ⟨fuel' - 1, by omega⟩
    have keeps := ih (Nat.le_of_succ_le_succ le)
    exact ⟨fun t has => keeps.refines_type closed grows has, keeps.refines_method closed grows⟩

omit closed in
theorem Grows.size_le : s.size ≤ s'.size := by
  have := grows.size
  simp only [Store.size, grows.vars, grows.methods]
  omega

/-- A key that is told stays the same while the store grows. -/
theorem keyWith_of_grows {fuel : Nat} {t : TypeId} {key : String} (enough : s.size < fuel)
    (has : s.Has (.type t)) (told : s.typeKey t = .ok key) :
    s'.keyWith fuel (.type t) = .ok key := by
  rw [typeKey, Store.key] at told
  rw [← told]
  exact (keepsKeys closed grows enough).types t has (by rw [told]; nofun)

theorem typeKey_of_grows {t : TypeId} {key : String} (has : s.Has (.type t))
    (told : s.typeKey t = .ok key) : s'.typeKey t = .ok key :=
  keyWith_of_grows closed grows (Nat.lt_succ_of_le grows.size_le) has told

end Store

end JavaScope
