import Mathlib.Data.Set.List
import JavaScope.Proofs.Scope.Feed
import JavaScope.Proofs.Scope.Supertypes
import JavaScope.Proofs.Scope.Traversal

/-!
# What the searches through a hierarchy visit

The search that offers members goes depth first, the search for the first fitting member breadth
first. Both visit the declarations that stand above the one they start from, each of them once, also
where supertypes run in circles. So a request that never stops is offered the members of all these
declarations, and no member is found exactly if none of them fits.
-/

namespace JavaScope

/-! ## Hierarchies without gaps -/

/-- No supertype is missing above a declaration. -/
def CompleteAbove (e : Environment) (d : TypeId) : Prop :=
  ∀ u, e.Reaches d u → none ∉ e.supertypesOf u

theorem CompleteAbove.exists_supertypes {e : Environment} {d u : TypeId}
    (complete : CompleteAbove e d) (way : e.Reaches d u) :
    ∃ us : List TypeId, e.supertypesOf u = us.map some ∧
      e.declarationsAbove u = us.map e.store.declarationOfType := by
  have given : e.supertypesOf u ∈ Set.range (List.map some) := by
    rw [Set.range_list_map]
    intro up member
    exact Option.ne_none_iff_exists.1 fun missing => complete u way (missing ▸ member)
  obtain ⟨us, same⟩ := given
  refine ⟨us, same.symm, ?_⟩
  rw [Environment.declarationsAbove, ← same, List.filterMap_map, ← List.filterMap_eq_map]
  rfl

/-! ## Depth first -/

/-- The request never asks to stop, and never fails. -/
def NeverStops (σ : Type) [Request σ] : Prop :=
  ∀ (s : Store) (candidate : Option BindingId) (r : σ),
    ∃ r', outcome (Request.accept s candidate) r = (.ok false, r')

section Depth

variable {σ : Type} [Request σ] {e e' : Environment} {flags : Flags} {among : Finset TypeId}
  {fuel : Nat} {visited starts : List TypeId}

omit [Request σ] in
theorem SearchM.outcome_lift_supertypes (rooted : e.IsRooted e') (t : TypeId) (r : σ) :
    ∃ e'', outcome (SearchM.lift (supertypes t)) (⟨e', r⟩ : Searching σ) =
      (.ok (e.supertypesOf t), ⟨e'', r⟩) ∧ e.IsRooted e'' := by
  obtain ⟨e'', above, rooted'⟩ := Environment.outcome_supertypes rooted t
  refine ⟨e'', ?_, rooted'⟩
  show ((outcome (supertypes t) e').1, (⟨(outcome (supertypes t) e').2, r⟩ : Searching σ)) = _
  rw [above]

theorem NeverStops.outcome_offerAll (never : NeverStops σ) (bs : List BindingId) (e : Environment)
    (o : Observed σ) : ∃ r', outcome (SearchM.offerAll bs) ⟨e, o⟩ =
      (.ok false, ⟨e, ⟨r', o.offered ++ bs.map some⟩⟩) := by
  induction bs generalizing o with
  | nil => exact ⟨o.request, by rw [List.map_nil, List.append_nil]; rfl⟩
  | cons b rest ih =>
    obtain ⟨r', accepted⟩ := never e.store (some b) o.request
    have first : outcome (SearchM.offer (some b)) (⟨e, o⟩ : Searching (Observed σ)) =
        (.ok false, ⟨e, ⟨r', o.offered ++ [some b]⟩⟩) := by
      show ((outcome (Request.accept e.store (some b)) o).1,
        (⟨e, (outcome (Request.accept e.store (some b)) o).2⟩ : Searching (Observed σ))) = _
      rw [outcome_accept_observed, accepted]
    obtain ⟨r'', others⟩ := ih ⟨r', o.offered ++ [some b]⟩
    refine ⟨r'', ?_⟩
    rw [SearchM.offerAll, List.anyM_cons, outcome_bind_of_ok first, if_neg Bool.false_ne_true]
    rw [List.map_cons, List.append_cons o.offered (some b) (rest.map some)]
    exact others

theorem NeverStops.outcome_offerMembers (never : NeverStops σ) (rooted : e.IsRooted e') (flags : Flags)
    (t : TypeId) (o : Observed σ) : ∃ r', outcome (offerMembers flags t) ⟨e', o⟩ =
      (.ok false, ⟨e', ⟨r', o.offered ++ (membersAsked e.store flags t).map some⟩⟩) := by
  rw [← rooted.grows.store.membersAsked_eq]
  exact never.outcome_offerAll (membersAsked e'.store flags t) e' o

/-- The search goes depth first through the types from `starts` on, and offers their members. -/
def Traverses (e : Environment) (flags : Flags) (visited starts : List TypeId)
    (search : SearchM (Observed σ) (Bool × List TypeId)) : Prop :=
  ∀ e' o, e.IsRooted e' → ∃ found e'' r',
    outcome search ⟨e', o⟩ = (.ok (false, found.reverse ++ visited),
      ⟨e'', ⟨r', o.offered ++ (found.flatMap (membersAsked e.store flags)).map some⟩⟩) ∧
    e.IsRooted e'' ∧ DepthFirst e.declarationsAbove visited starts found

omit [Request σ] in
theorem traverses_visitEach
    {visit : Option TypeId → List TypeId → SearchM (Observed σ) (Bool × List TypeId)} {us : List TypeId}
    (each : ∀ u ∈ us, ∀ visited, remaining among visited ≤ fuel →
      Traverses e flags visited [e.store.declarationOfType u] (visit (some u) visited))
    (enough : remaining among visited ≤ fuel) :
    Traverses e flags visited (us.map e.store.declarationOfType)
      (visitEach visit (us.map some) visited) := by
  induction us generalizing visited with
  | nil =>
    intro e' o rooted
    exact ⟨[], e', o.request, by simp [visitEach], rooted, .done visited⟩
  | cons u rest ih =>
    intro e' o rooted
    obtain ⟨found, e₁, r₁, first, rooted₁, order⟩ :=
      each u List.mem_cons_self visited enough e' o rooted
    have enough' := Nat.le_trans (remaining_append_le among found.reverse visited) enough
    obtain ⟨found', e₂, r₂, second, rooted₂, order'⟩ :=
      ih (fun u hu => each u (List.mem_cons_of_mem _ hu)) enough' e₁
        ⟨r₁, o.offered ++ (found.flatMap (membersAsked e.store flags)).map some⟩ rooted₁
    refine ⟨found ++ found', e₂, r₂, ?_, rooted₂, order.append order'⟩
    rw [List.map_cons, visitEach, outcome_bind_of_ok first]
    simp only [Bool.false_eq_true, if_false, second, List.reverse_append, List.append_assoc,
      List.flatMap_append, List.map_append]

omit [Request σ] in
/-- A search leaves alone what was visited before, and else needs fuel. -/
theorem outcome_collectInheritedWith {τ : Type} [Request τ] (rooted : e.IsRooted e') (flags : Flags)
    (fuel : Nat) (t : TypeId) (visited : List TypeId) (r : τ) :
    outcome (collectInheritedWith flags fuel (some t) visited) ⟨e', r⟩ =
      if e.store.declarationOfType t ∈ visited then (.ok (false, visited), ⟨e', r⟩)
      else match fuel with
        | 0 => (.error .endless, ⟨e', r⟩)
        | fuel + 1 => outcome (do
            let visited := e.store.declarationOfType t :: visited
            if ← offerMembers flags (e.store.declarationOfType t) then return (true, visited)
            let ups ← SearchM.lift (supertypes (e.store.declarationOfType t))
            visitEach (collectInheritedWith flags fuel) ups visited) ⟨e', r⟩ := by
  have given : outcome (ofExcept (needed (some t))) (⟨e', r⟩ : Searching τ) =
    (.ok t, ⟨e', r⟩) := rfl
  have read : outcome (SearchM.read Environment.store) (⟨e', r⟩ : Searching τ) =
    (.ok e'.store, ⟨e', r⟩) := rfl
  rw [collectInheritedWith, outcome_bind_of_ok given, outcome_bind_of_ok read,
    Environment.declarationOfType_eq rooted]
  by_cases seen : e.store.declarationOfType t ∈ visited
  · rw [if_pos (by simpa using seen), if_pos seen, outcome_pure]
  · rw [if_neg (by simpa using seen), if_neg seen]
    cases fuel <;> rfl

theorem traverses_collectInheritedWith (flags : Flags) (never : NeverStops σ) {d : TypeId}
    (complete : CompleteAbove e d) (inside : ∀ u, e.Reaches d u → u ∈ among) {t : TypeId}
    (way : e.Reaches d (e.store.declarationOfType t)) (enough : remaining among visited ≤ fuel) :
    Traverses (σ := σ) e flags visited [e.store.declarationOfType t]
      (collectInheritedWith flags fuel (some t) visited) := by
  induction fuel generalizing t visited with
  | zero =>
    intro e' o rooted
    have seen : e.store.declarationOfType t ∈ visited := by
      by_contra fresh
      have fewer := remaining_cons (inside _ way) fresh
      omega
    rw [outcome_collectInheritedWith rooted, if_pos seen]
    exact ⟨[], e', o.request, by simp, rooted, .skip seen (.done visited)⟩
  | succ fuel ih =>
    intro e' o rooted
    rw [outcome_collectInheritedWith rooted]
    by_cases seen : e.store.declarationOfType t ∈ visited
    · rw [if_pos seen]
      exact ⟨[], e', o.request, by simp, rooted, .skip seen (.done visited)⟩
    · rw [if_neg seen]
      obtain ⟨us, names, next⟩ := complete.exists_supertypes way
      have fewer := remaining_cons (inside _ way) seen
      have each : ∀ u ∈ us, ∀ visited, remaining among visited ≤ fuel →
          Traverses (σ := σ) e flags visited [e.store.declarationOfType u]
            (collectInheritedWith flags fuel (some u) visited) := fun u hu visited enough =>
        ih (way.tail (Environment.mem_declarationsAbove.1 (next ▸ List.mem_map_of_mem hu))) enough
      have enough' : remaining among (e.store.declarationOfType t :: visited) ≤ fuel := by omega
      obtain ⟨r₁, members⟩ := never.outcome_offerMembers rooted flags (e.store.declarationOfType t) o
      obtain ⟨e₁, above, rooted₁⟩ :=
        SearchM.outcome_lift_supertypes rooted (e.store.declarationOfType t) _
      obtain ⟨found, e₂, r₂, rest, rooted₂, order⟩ := traverses_visitEach each enough' e₁ _ rooted₁
      refine ⟨e.store.declarationOfType t :: found, e₂, r₂, ?_, rooted₂, .visit seen ?_⟩
      · dsimp only
        rw [outcome_bind_of_ok members, if_neg Bool.false_ne_true, outcome_bind_of_ok above, names,
          rest]
        simp
      · rw [next, List.append_nil]
        exact order

end Depth

/-! ## Breadth first -/

/-- The next type is the first one that was not visited. -/
theorem nextUnvisited_cases (s : Store) (visited waiting : List TypeId) :
    (nextUnvisited s visited (waiting.map some) = .ok none ∧
        ∀ u ∈ waiting, s.declarationOfType u ∈ visited) ∨
      ∃ before u rest, waiting = before ++ u :: rest ∧
        (∀ w ∈ before, s.declarationOfType w ∈ visited) ∧ s.declarationOfType u ∉ visited ∧
        nextUnvisited s visited (waiting.map some) =
          .ok (some (s.declarationOfType u, rest.map some)) := by
  induction waiting with
  | nil => exact .inl ⟨rfl, nofun⟩
  | cons u rest ih =>
    have unfolded : nextUnvisited s visited ((u :: rest).map some) =
        if visited.contains (s.declarationOfType u) then nextUnvisited s visited (rest.map some)
        else .ok (some (s.declarationOfType u, rest.map some)) := rfl
    rw [unfolded]
    by_cases seen : s.declarationOfType u ∈ visited
    · rw [if_pos (by simpa using seen)]
      rcases ih with ⟨none, done⟩ | ⟨before, w, rest', rfl, done, fresh, found⟩
      · exact .inl ⟨none, List.forall_mem_cons.2 ⟨seen, done⟩⟩
      · exact .inr ⟨u :: before, w, rest', rfl, List.forall_mem_cons.2 ⟨seen, done⟩, fresh, found⟩
    · rw [if_neg (by simpa using seen)]
      exact .inr ⟨[], u, rest, rfl, nofun, seen, rfl⟩

section Breadth

variable {e e' : Environment} {fits : Store → BindingId → Bool} {d : TypeId}

theorem outcome_findMemberWith_done {pending : List (Option TypeId)} {visited : List TypeId}
    (fuel : Nat) (done : nextUnvisited e.store visited pending = .ok none) :
    outcome (findMemberWith fits fuel pending visited) e = (.ok none, e) := by
  have read : outcome (EnvironmentM.read Environment.store) e = (.ok e.store, e) := rfl
  rw [findMemberWith, outcome_bind_of_ok read, done]
  rfl

theorem outcome_findMemberWith_next {pending rest : List (Option TypeId)} {visited : List TypeId}
    {t : TypeId} (fuel : Nat) (next : nextUnvisited e.store visited pending = .ok (some (t, rest))) :
    outcome (findMemberWith fits (fuel + 1) pending visited) e =
      match (membersOf e.store t).find? (fits e.store) with
      | some member => (.ok (some member), e)
      | none => outcome (supertypes t >>= fun ups =>
          findMemberWith fits fuel (rest ++ ups) (t :: visited)) e := by
  have read : outcome (EnvironmentM.read Environment.store) e = (.ok e.store, e) := rfl
  have found : outcome (ofExcept (.ok (some (t, rest)))) e = (.ok (some (t, rest)), e) := rfl
  rw [findMemberWith, outcome_bind_of_ok read, next, outcome_bind_of_ok found]
  dsimp only
  cases (membersOf e.store t).find? (fits e.store) <;> rfl

/-- The search looks breadth first at the members of the types that wait and of what stands above
them, and answers the first one that fits. -/
theorem outcome_findMemberWith {among : Finset TypeId} (complete : CompleteAbove e d)
    (inside : ∀ u, e.Reaches d u → u ∈ among)
    (steady : ∀ s, e.store.Grows s → ∀ b, fits s b = fits e.store b) {fuel : Nat}
    {visited waiting : List TypeId}
    (reached : ∀ u ∈ waiting, e.Reaches d (e.store.declarationOfType u))
    (enough : remaining among visited ≤ fuel) (rooted : e.IsRooted e') :
    ∃ found e'', outcome (findMemberWith fits fuel (waiting.map some) visited) e' =
        (.ok ((found.flatMap (membersOf e.store)).find? (fits e.store)), e'') ∧
      e.IsRooted e'' ∧
      BreadthFirst e.declarationsAbove visited (waiting.map e.store.declarationOfType) found := by
  induction fuel generalizing e' visited waiting with
  | zero =>
    rcases nextUnvisited_cases e'.store visited waiting with
      ⟨none, done⟩ | ⟨before, u, rest, rfl, -, fresh, -⟩
    · simp only [Environment.declarationOfType_eq rooted] at done
      refine ⟨[], e', outcome_findMemberWith_done 0 none, rooted, ?_⟩
      simpa using Traversal.skip_all (List.forall_mem_map.2 done) (.done visited)
    · rw [Environment.declarationOfType_eq rooted] at fresh
      have fewer := remaining_cons (inside _ (reached u (by simp))) fresh
      omega
  | succ fuel ih =>
    rcases nextUnvisited_cases e'.store visited waiting with
      ⟨none, done⟩ | ⟨before, u, rest, rfl, done, fresh, found⟩
    · simp only [Environment.declarationOfType_eq rooted] at done
      refine ⟨[], e', outcome_findMemberWith_done (fuel + 1) none, rooted, ?_⟩
      simpa using Traversal.skip_all (List.forall_mem_map.2 done) (.done visited)
    · have same : fits e'.store = fits e.store := funext (steady e'.store rooted.grows.store)
      rw [outcome_findMemberWith_next fuel found, same, rooted.grows.store.membersOf_eq]
      simp only [Environment.declarationOfType_eq rooted] at done fresh ⊢
      have way := reached u (by simp)
      obtain ⟨above, names, next⟩ := complete.exists_supertypes way
      obtain ⟨e₁, read, rooted₁⟩ :=
        Environment.outcome_supertypes rooted (e.store.declarationOfType u)
      have fewer := remaining_cons (inside _ way) fresh
      have reached' : ∀ w ∈ rest ++ above, e.Reaches d (e.store.declarationOfType w) := by
        intro w hw
        rcases List.mem_append.1 hw with hw | hw
        · exact reached w (by simp [hw])
        · exact way.tail (Environment.mem_declarationsAbove.1 (next ▸ List.mem_map_of_mem hw))
      have enough' : remaining among (e.store.declarationOfType u :: visited) ≤ fuel := by omega
      obtain ⟨later, e₂, run, rooted₂, order⟩ := ih reached' enough' rooted₁
      have order' : BreadthFirst e.declarationsAbove visited
          ((before ++ u :: rest).map e.store.declarationOfType)
          (e.store.declarationOfType u :: later) := by
        rw [List.map_append, List.map_cons]
        refine Traversal.skip_all (List.forall_mem_map.2 done) (.visit fresh ?_)
        rw [next, ← List.map_append]
        exact order
      cases fit : (membersOf e.store (e.store.declarationOfType u)).find? (fits e.store) with
      | some member =>
        refine ⟨_, e', ?_, rooted, order'⟩
        rw [List.flatMap_cons, List.find?_append, fit]
        rfl
      | none =>
        refine ⟨_, e₂, ?_, rooted₂, order'⟩
        dsimp only
        rw [outcome_bind_of_ok read, names, ← List.map_append, run, List.flatMap_cons,
          List.find?_append, fit]
        rfl

end Breadth

/-! ## Both searches -/

section Searches

variable {e : Environment} {t : TypeId} {among : Finset TypeId}

/-- The members of a type are offered depth first. -/
theorem depthFirst_collectInherited {σ : Type} [Request σ] (never : NeverStops σ)
    (complete : CompleteAbove e (e.store.declarationOfType t))
    (inside : ∀ u, e.Reaches (e.store.declarationOfType t) u → u ∈ among)
    (few : among.card ≤ e.store.types.size + 2) (flags : Flags) (r : σ) :
    ∃ found e' r', outcome (collectInherited flags t []) (⟨e, ⟨r, []⟩⟩ : Searching (Observed σ)) =
        (.ok (false, found.reverse),
          ⟨e', ⟨r', (found.flatMap (membersAsked e.store flags)).map some⟩⟩) ∧
      DepthFirst e.declarationsAbove [] [e.store.declarationOfType t] found := by
  obtain ⟨found, e', r', offered, -, order⟩ :=
    traverses_collectInheritedWith flags never complete inside .refl
      ((remaining_le among []).trans few) e ⟨r, []⟩ (.refl e)
  refine ⟨found, e', r', ?_, order⟩
  have read : outcome (SearchM.read Environment.store) (⟨e, ⟨r, []⟩⟩ : Searching (Observed σ)) =
    (.ok e.store, ⟨e, ⟨r, []⟩⟩) := rfl
  rw [collectInherited, outcome_bind_of_ok read, offered, List.append_nil, List.nil_append]

/-- The first member that fits is found breadth first, also where the type above all others was made
before. -/
theorem outcome_findMember (complete : CompleteAbove e (e.store.declarationOfType t))
    (inside : ∀ u, e.Reaches (e.store.declarationOfType t) u → u ∈ among)
    (few : among.card ≤ e.store.types.size + 2) {fits : Store → BindingId → Bool}
    (steady : ∀ s, e.store.Grows s → ∀ b, fits s b = fits e.store b) {e' : Environment}
    (rooted : e.IsRooted e') :
    ∃ found e'', outcome (findMember t fits) e' =
        (.ok ((found.flatMap (membersOf e.store)).find? (fits e.store)), e'') ∧
      e.IsRooted e'' ∧ BreadthFirst e.declarationsAbove [] [e.store.declarationOfType t] found := by
  have start : ∀ u ∈ [t], e.Reaches (e.store.declarationOfType t) (e.store.declarationOfType u) := by
    intro u hu
    rw [List.mem_singleton.1 hu]
    exact .refl
  have enough : remaining among [] ≤ e'.store.types.size + 2 :=
    ((remaining_le among []).trans few).trans (Nat.add_le_add_right rooted.grows.store.size 2)
  obtain ⟨found, e'', run, rooted', order⟩ :=
    outcome_findMemberWith complete inside steady start enough rooted
  refine ⟨found, e'', ?_, rooted', order⟩
  have read : outcome (EnvironmentM.read Environment.store) e' = (.ok e'.store, e') := rfl
  rw [findMember, outcome_bind_of_ok read]
  exact run

theorem breadthFirst_findMember (complete : CompleteAbove e (e.store.declarationOfType t))
    (inside : ∀ u, e.Reaches (e.store.declarationOfType t) u → u ∈ among)
    (few : among.card ≤ e.store.types.size + 2) {fits : Store → BindingId → Bool}
    (steady : ∀ s, e.store.Grows s → ∀ b, fits s b = fits e.store b) :
    ∃ found e', outcome (findMember t fits) e =
        (.ok ((found.flatMap (membersOf e.store)).find? (fits e.store)), e') ∧
      BreadthFirst e.declarationsAbove [] [e.store.declarationOfType t] found := by
  obtain ⟨found, e', run, -, order⟩ := outcome_findMember complete inside few steady (.refl e)
  exact ⟨found, e', run, order⟩

/-- Depth first or breadth first, the searches find what stands above the declaration they start
from. -/
theorem DepthFirst.explored {d : TypeId} {found : List TypeId}
    (h : DepthFirst e.declarationsAbove [] [d] found) : Explored e.IsBelow [] [d] found :=
  Traversal.explored Environment.mem_declarationsAbove (by simp) h

theorem BreadthFirst.explored {d : TypeId} {found : List TypeId}
    (h : BreadthFirst e.declarationsAbove [] [d] found) : Explored e.IsBelow [] [d] found :=
  Traversal.explored Environment.mem_declarationsAbove (by simp [or_comm]) h

end Searches

/-- What the searches through the hierarchy of a type make of it: they visit the declarations `found`,
which are those that can be reached through supertypes. A request that never stops is offered the
members of each of them that are asked for, and a member is found if one of them has one that fits. -/
structure VisitedAlike {σ : Type} [Request σ] (e : Environment) (t : TypeId) (flags : Flags) (r : σ)
    (fits : Store → BindingId → Bool) (found : List TypeId) : Prop where
  supertypes : ∀ u, (outcome (supertypes u) e).1 = .ok (e.supertypesOf u)
  nodup : found.Nodup
  reached : ∀ u, u ∈ found ↔ e.Reaches (e.store.declarationOfType t) u
  offered : ∃ e' r', outcome (collectInherited flags t []) (⟨e, ⟨r, []⟩⟩ : Searching (Observed σ)) =
    (.ok (false, found.reverse),
      ⟨e', ⟨r', (found.flatMap (membersAsked e.store flags)).map some⟩⟩)
  fitting : ∃ member e', outcome (findMember t fits) e = (.ok member, e') ∧
    (member = none ↔ ∀ u ∈ found, ∀ b ∈ membersOf e.store u, fits e.store b = false)

/-- Depth first and breadth first, the searches through a hierarchy visit the same declarations, also
where it has circles. -/
theorem exists_visitedAlike {σ : Type} [Request σ] (never : NeverStops σ) {e : Environment}
    (closed : e.Closed) {t : TypeId} (has : e.store.Has (.type t))
    (complete : CompleteAbove e (e.store.declarationOfType t)) (flags : Flags) (r : σ)
    {fits : Store → BindingId → Bool}
    (steady : ∀ s, e.store.Grows s → ∀ b, fits s b = fits e.store b) :
    ∃ found, VisitedAlike e t flags r fits found := by
  have place := Environment.index_declarationOfType_le closed (Nat.le_of_lt has)
  have inside : ∀ u, e.Reaches (e.store.declarationOfType t) u → u ∈ typesUpTo e.store.types.size :=
    fun u way => mem_typesUpTo.2 (way.index_le closed place)
  have few := (card_typesUpTo_le e.store.types.size).trans (Nat.le_succ _)
  obtain ⟨found, e₁, r₁, offered, depthFirst⟩ :=
    depthFirst_collectInherited never complete inside few flags r
  obtain ⟨found', e₂, fitting, breadthFirst⟩ := breadthFirst_findMember complete inside few steady
  have deep := depthFirst.explored
  refine ⟨found, fun u => ?_, deep.nodup, deep.mem_iff, ⟨e₁, r₁, offered⟩, _, e₂, fitting, ?_⟩
  · obtain ⟨e', read, -⟩ := Environment.outcome_supertypes (.refl e) u
    rw [read]
  · have same : ∀ u, u ∈ found' ↔ u ∈ found :=
      fun u => (breadthFirst.explored.mem_iff u).trans (deep.mem_iff u).symm
    simp only [List.find?_eq_none, List.mem_flatMap, same, Bool.not_eq_true]
    constructor
    · exact fun unfit u hu b hb => unfit b ⟨u, hu, hb⟩
    · rintro unfit b ⟨u, hu, hb⟩
      exact unfit u hu b hb

/-- Two classes that extend each other, one of them by a use of the other, an interface of theirs, and
a type variable bounded by all of them and by a variable without bounds. -/
def circular : Environment :=
  { Environment.empty (.ofFile "" (.named .program none 0 0 [])) with
    store := {
      types := #[{ name := "A", superclass := some ⟨1⟩, declaredFields := [⟨0⟩] },
        { name := "B", kind := .parameterized, genericType := some ⟨2⟩ },
        { name := "B", superclass := some ⟨0⟩, interfaces := [some ⟨3⟩],
          declaredMethods := [⟨0⟩, ⟨1⟩] },
        { name := "I", kind := .interfaceType, declaredMethods := [⟨2⟩] },
        { name := "T", kind := .typeParameter, bounds := [some ⟨0⟩, some ⟨3⟩, some ⟨5⟩] },
        { name := "S", kind := .typeParameter }]
      vars := #[{ name := "x", isField := true, declaringClass := some ⟨0⟩ }]
      methods := #[{ name := "B", isConstructor := true, declaringClass := some ⟨2⟩ },
        { name := "f", declaringClass := some ⟨2⟩ }, { name := "g", declaringClass := some ⟨3⟩ }] } }

theorem circular_entries {P : TypeBinding → Prop} (each : ∀ b ∈ circular.store.types.toList, P b)
    (bare : P {}) (t : TypeId) : P (circular.store.type t) := by
  by_cases inside : t.index < circular.store.types.size
  · rw [Store.type, Array.getD_eq_getD_getElem?, Array.getElem?_eq_getElem inside]
    exact each _ (by simp)
  · rw [Store.type_of_size_le (Nat.le_of_not_lt inside)]
    exact bare

theorem circular_closed : circular.Closed where
  store := {
    types := circular_entries (P := fun b => ∀ u ∈ b.links, u.index < circular.store.types.size)
      (by decide) (by decide)
    vars := by
      rintro ⟨_ | i⟩
      · decide
      · nofun
    methods := by
      rintro ⟨_ | _ | _ | i⟩
      · decide
      · decide
      · decide
      · nofun }
  declared := nofun
  types := nofun
  recovered := nofun
  derived := nofun

theorem circular_completeAbove (d : TypeId) : CompleteAbove circular d := fun u _ =>
  Environment.none_notMem_supertypesOf <| circular_entries
    (P := fun b => none ∉ if b.isTypeVariable then b.bounds else b.interfaces) (by decide) (by decide) u

theorem exists_visitedAlike_circular :
    NeverStops Recorder ∧ circular.Closed ∧ circular.store.Has (.type ⟨4⟩) ∧
      CompleteAbove circular (circular.store.declarationOfType ⟨4⟩) ∧
      ∃ found, VisitedAlike circular ⟨4⟩ ⟨true, true, true, true⟩ Recorder.empty
        (fun _ b => b == .method ⟨1⟩) found := by
  have never : NeverStops Recorder := fun _ candidate r => ⟨⟨r.offered ++ [candidate]⟩, rfl⟩
  have has : circular.store.Has (.type ⟨4⟩) := show 4 < 6 by decide
  have complete := circular_completeAbove (circular.store.declarationOfType ⟨4⟩)
  exact ⟨never, circular_closed, has, complete, exists_visitedAlike never circular_closed has complete
    ⟨true, true, true, true⟩ Recorder.empty fun _ _ _ => rfl⟩

end JavaScope
