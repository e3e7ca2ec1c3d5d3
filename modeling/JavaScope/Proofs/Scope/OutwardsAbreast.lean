import JavaScope.Proofs.Environment.Spelling
import JavaScope.Proofs.Scope.MembersAbreast
import JavaScope.Proofs.Scope.Outwards
import JavaScope.Proofs.Scope.WalkAbreast

/-!
# The searches outwards for several kinds and for one

The way outwards through the enclosing types is the same for several kinds as for one of them, and the
built environment alone decides it. So where the first search comes to its end, the fuel of the second
one is enough, however few types were made on its way.
-/

namespace JavaScope

/-! ## The way outwards -/

namespace Environment

/-- The type around a type. A local type lies in what encloses the node above its own. -/
def typeAround (e : Environment) (t : TypeId) : Option TypeId :=
  let b := e.store.type t
  if b.isLocal then (b.node.bind Node.parent).bind e.enclosingType else b.declaringClass

/-- Goes outwards from a type to the outermost one. -/
def wayOut (e : Environment) : Nat → TypeId → Except Fault Unit
  | 0, _ => throw .endless
  | fuel + 1, t =>
    match e.typeAround t with
    | some around => e.wayOut fuel around
    | none => return

variable {c : Context} {e : Environment} {t u : TypeId}

theorem has_typeAround (closed : e.Closed) (around : e.typeAround t = some u) :
    e.store.Has (.type u) := by
  rw [typeAround] at around
  split at around
  · obtain ⟨outer, -, enclosed⟩ := Option.bind_eq_some_iff.1 around
    exact has_of_declares closed (declares_enclosingType enclosed)
  · exact closed.store.types t u (by simp [TypeBinding.links, around])

/-- What lies around a type of the first pass is one, too. -/
theorem MakesFirst.typeAround (built : build c = .ok e) (first : MakesFirst c t)
    (around : e.typeAround t = some u) : MakesFirst c u := by
  rw [Environment.typeAround] at around
  split at around
  · obtain ⟨outer, -, enclosed⟩ := Option.bind_eq_some_iff.1 around
    exact makesFirst_of_declares built (declares_enclosingType enclosed)
  · exact first.owner built around

theorem refines_wayOut (e : Environment) {fuel fuel' : Nat} (le : fuel ≤ fuel') (t : TypeId) :
    Refines (e.wayOut fuel t) (e.wayOut fuel' t) := by
  induction fuel generalizing fuel' t with
  | zero => exact .endless _
  | succ fuel ih =>
    obtain ⟨fuel', rfl⟩ : ∃ n, fuel' = n + 1 := ⟨fuel' - 1, by omega⟩
    rw [wayOut, wayOut]
    split
    · exact ih (Nat.le_of_succ_le_succ le) _
    · exact .refl _

/-- A way that comes to an end does so with fuel for all types that there are. -/
theorem wayOut_enough (closed : e.Closed) {fuel fuel' : Nat} (ends : e.wayOut fuel t = .ok ())
    (has : e.store.Has (.type t)) (enough : e.store.types.size ≤ fuel') :
    e.wayOut fuel' t = .ok () := by
  have settled : ∀ n, e.store.types.size ≤ n → e.wayOut n t = e.wayOut e.store.types.size t := by
    intro n enough
    refine settles (f := fun n i => e.wayOut n ⟨i⟩)
      (fun n i _ => refines_wayOut e (Nat.le_succ n) ⟨i⟩) ?_ enough t.index has
    intro n m same i _
    simp only [wayOut]
    split
    · next around => exact same _ (has_typeAround closed around)
    · rfl
  have longer := refines_wayOut e (Nat.le_max_left fuel fuel') t (by rw [ends]; nofun)
  rw [settled fuel' enough, ← settled (max fuel fuel') (by omega), longer, ends]

end Environment

/-! ## What a collection passes on its way -/

/-- A collection is never stopped, and its environment keeps what is invariant on its course. -/
theorem HasCourse.ensures_collection {I : Environment → Prop} {J : Offer → Prop} {α : Type}
    {halted : α → Bool} {search : AnySearch α} (h : HasCourse I J halted search) :
    Ensures (fun st : Searching Collection => I st.environment) (search Collection) fun x st =>
      halted x = false ∧ I st.environment := by
  intro st start x st' run
  have kept := h.keeps (K := fun _ => True) keeps_true st ⟨start, trivial⟩
  rw [run] at kept
  exact ⟨h.unhalted_of_collection start run, kept.1⟩

section Way

variable {c : Context} {e₀ : Environment} {typeOf : Typing} {t : TypeId} (ready : e₀.Ready c)
  (keeps : ∀ n, Keeps e₀.Grows (typeOf n)) (flags : Flags)

include ready keeps

/-- A collection goes outwards to the type around. -/
theorem ensures_stepOut (has : e₀.store.Has (.type t)) :
    Ensures (fun st : Searching Collection => e₀.Grows st.environment) (stepOut typeOf flags t)
      fun x st => x = (false, e₀.typeAround t) ∧ e₀.Grows st.environment := by
  refine Ensures.bind (Q := fun st st' => e₀.Grows st.environment ∧ e₀.Grows st'.environment)
    (.get fun st grown => ⟨grown, grown⟩) fun st => .of_fact fun grown => ?_
  simp only [stepOutFrom, grown.store.kept t has, Environment.typeAround]
  cases (e₀.store.type t).isLocal
  · simp only [Bool.false_eq_true, if_false]
    cases (e₀.store.type t).declaringClass with
    | some around => exact .pure fun _ h => ⟨rfl, h⟩
    | none =>
      refine .ite (fun _ => ?_) fun _ => .pure fun _ h => ⟨rfl, h⟩
      have offered : HasCourse e₀.Grows (fun _ => True) id fun _ _ =>
          SearchM.offerAll (st.environment.types.map .type) :=
        HasCourse.offerAll fun _ _ _ _ => trivial
      refine offered.ensures_collection.bind fun stopped => .of_fact fun unstopped => .pure fun _ h => ?_
      exact ⟨by rw [show stopped = false from unstopped], h⟩
  · simp only [if_true]
    cases (e₀.store.type t).node with
    | none => exact .pure fun _ h => ⟨rfl, h⟩
    | some n =>
      simp only [Option.bind_some]
      cases n.parent with
      | none => exact .pure fun _ h => ⟨rfl, h⟩
      | some outer =>
        refine (hasCourse_collectAroundLocalType ready keeps flags n outer _).ensures_collection.bind
          fun stopped => .of_fact fun unstopped => ?_
        rw [show stopped = false from unstopped, if_neg Bool.false_ne_true]
        refine Ensures.bind (Q := fun st st' => e₀.Grows st.environment ∧ e₀.Grows st'.environment)
          (.get fun st grown => ⟨grown, grown⟩) fun st => .of_fact fun grown => ?_
        exact .pure fun _ h => ⟨by rw [grown.enclosingType]; rfl, h⟩

/-- A collection that answers has gone the way out to its end. -/
theorem wayOut_of_collected (fuel : Nat) (has : e₀.store.Has (.type t)) (visited : List TypeId) :
    Ensures (fun st : Searching Collection => e₀.Grows st.environment)
      (collectTypesWith typeOf flags fuel t visited) fun _ _ => e₀.wayOut fuel t = .ok () := by
  induction fuel generalizing t visited with
  | zero => exact .throw .endless
  | succ fuel ih =>
    rw [collectTypesWith_succ]
    have type : HasCourse e₀.Grows (fun _ => True) id fun _ _ => offerType flags t :=
      .read_bind fun _ _ => .ite (.offerAll fun _ _ _ _ => trivial) (.pure rfl)
    refine type.ensures_collection.bind fun stopped => .of_fact fun unstopped => ?_
    rw [show stopped = false from unstopped, if_neg Bool.false_ne_true]
    have members := hasCourse_collectInherited (MayOffer.anything e₀.Grows) keeps_supertypes flags t
      visited
    refine members.ensures_collection.bind fun found => .of_fact fun _ => ?_
    refine (ensures_stepOut ready keeps flags has).bind fun step => .of_fact fun same => ?_
    rw [same, Environment.wayOut]
    cases around : e₀.typeAround t with
    | none => exact .pure fun _ _ => rfl
    | some u => exact ih (Environment.has_typeAround ready.sound.closed around) _

end Way

/-! ## Outwards side by side -/

section Abreast

variable {c : Context} {e₀ : Environment} {k : BindingKind} {tied : Prop} {typeOf : Typing}
  {flags : Flags}

/-- Types are offered by both collections if they are asked for, and otherwise by the first one at
most. -/
theorem parallel_offerTypes (closed : e₀.Closed) (asks : flags.asks k = true) {types : List TypeId}
    (stored : ∀ u ∈ types, e₀.store.Has (.type u)) (wanted : Bool) :
    Parallel e₀ k tied
      (if flags.types && wanted then SearchM.offerAll (types.map .type) else pure false)
      (if (flags.only k).types && wanted then SearchM.offerAll (types.map .type) else pure false) := by
  have offered : Parallel e₀ k tied (SearchM.offerAll (types.map .type))
      (SearchM.offerAll ((types.map BindingId.type).filter (·.kind == k))) :=
    .offerAll closed fun u hu => stored u (by simpa using hu)
  rw [filter_kind (kind_of_mem_map (f := .type) (fun _ => rfl) types)] at offered
  by_cases same : k = .type
  · have types : flags.types = true := by
      rw [same] at asks
      exact asks
    have only : (flags.only k).types = true := by simp [Flags.only, same]
    rw [if_pos same] at offered
    simp only [types, only, Bool.true_and]
    exact .ite (fun _ => offered) fun _ => .pure
  · have only : (flags.only k).types = false := by simpa [Flags.only] using same
    rw [if_neg same] at offered
    simp only [only, Bool.false_and, Bool.false_eq_true, if_false]
    exact .ite_left (fun _ => offered) fun _ => .pure

/-- A type with its type parameters. -/
theorem parallel_offerType (closed : e₀.Closed) (asks : flags.asks k = true) {t : TypeId}
    (has : e₀.store.Has (.type t)) :
    Parallel e₀ k tied (offerType flags t) (offerType (flags.only k) t) := by
  refine .read_bind fun e e' grown grown' _ => ?_
  dsimp only
  rw [grown.store.kept t has, grown'.store.kept t has]
  refine parallel_offerTypes closed asks (fun u hu => ?_) _
  rcases List.mem_cons.1 hu with rfl | hu
  · exact has
  · exact closed.store.types t u (by simp [TypeBinding.links, hu])

section Walks

variable (built : Environment.build c = .ok e₀) (shape : c.document.tree.HasLeafNames)
  (plain : c.document.tree.HasPlainLambdas)
  (keeps : ∀ (I : Environment → Prop) [Environment.Lasts I] (n : Node), Keeps I (typeOf n))
  (asks : flags.asks k = true)

include built shape plain keeps asks

/-- The local declarations around a local type. -/
theorem parallel_collectAroundLocalType {n outer : Node} (hn : outer ∈ c.document.root.preorder)
    (isAnonymous : Bool) :
    Parallel e₀ k (k = .variable) (collectAroundLocalType typeOf flags n outer isAnonymous)
      (collectAroundLocalType typeOf (flags.only k) n outer isAnonymous) := by
  have locals : ∀ e e', e₀.Extends e → e₀.Extends e' → Parallel e₀ k (k = .variable)
      (collectLocal typeOf outer (e.context.unit.charStart (if isAnonymous then outer else n)) flags)
      (collectLocal typeOf outer (e'.context.unit.charStart (if isAnonymous then outer else n))
        (flags.only k)) := by
    intro e e' grown grown'
    rw [grown.context, grown'.context]
    exact parallel_collectLocal built shape plain (keeps e₀.Extends) asks hn _
  exact fun st st' abreast => locals _ _ abreast.first abreast.second st st' abreast

/-- What lies between the members of a type and the type around it. -/
theorem tracks_stepOut {t : TypeId} (first : Environment.MakesFirst c t) :
    Tracks (Abreast e₀ k (k = .variable)) (stepOut typeOf flags t) (stepOut typeOf (flags.only k) t)
      fun _ _ => Abreast e₀ k (k = .variable) := by
  have closed := (Environment.build_ready built).sound.closed
  have has := first.has built
  intro st st' abreast
  have step : Tracks (Abreast e₀ k (k = .variable)) (stepOutFrom typeOf flags st.environment t)
      (stepOutFrom typeOf (flags.only k) st'.environment t) fun _ _ => Abreast e₀ k (k = .variable) := by
    simp only [stepOutFrom, abreast.first.store.kept t has, abreast.second.store.kept t has,
      abreast.first.types, abreast.second.types]
    cases (e₀.store.type t).isLocal
    · simp only [Bool.false_eq_true, if_false]
      cases (e₀.store.type t).declaringClass with
      | some around => exact .pure fun _ _ h => h
      | none =>
        -- the top-level types are offered as types are everywhere else
        have outermost : ∀ (wanted : Bool) (search : SearchM Collection Bool),
            (if wanted then search >>= fun stopped => pure (stopped, none) else pure (false, none)) =
              (if wanted then search else pure false) >>= fun stopped =>
                (pure (stopped, none) : SearchM Collection (Bool × Option TypeId)) := by
          intro wanted search
          cases wanted <;> simp
        rw [outermost, outermost]
        exact Tracks.bind (parallel_offerTypes closed asks closed.types _) fun _ _ =>
          .pure fun _ _ h => h.2.2
    · simp only [if_true]
      cases node : (e₀.store.type t).node with
      | none => exact .pure fun _ _ h => h
      | some n =>
        simp only [Option.bind_some]
        cases above : n.parent with
        | none => exact .pure fun _ _ h => h
        | some outer =>
          have houter := (Tree.mem_of_parent (first.node_mem built shape node) above).1
          refine Tracks.bind (parallel_collectAroundLocalType built shape plain keeps asks houter _)
            fun _ _ => Tracks.from_states ?_
          rintro st₁ st₁' ⟨rfl, rfl, abreast₁⟩ _ _ ⟨rfl, rfl⟩ _ _ ⟨⟩
          exact ⟨_, _, rfl, abreast₁⟩
  exact step st st' abreast

/-- The step outwards leads both searches to the same type, and lets their environments grow. -/
theorem tracks_stepOutFrom {t : TypeId} (first : Environment.MakesFirst c t)
    {st st' : Searching Collection} (abreast : Abreast e₀ k (k = .variable) st st') :
    Tracks (fun r r' => r = st ∧ r' = st') (stepOut typeOf flags t) (stepOut typeOf (flags.only k) t)
      fun step step' r r' => step = (false, e₀.typeAround t) ∧ step' = (false, e₀.typeAround t) ∧
        AbreastFrom e₀ k (k = .variable) st.environment st'.environment r r' := by
  have ready := Environment.build_ready built
  have has := first.has built
  rintro r r' ⟨hr, hr'⟩ step st₁ run
  rw [hr] at run
  rw [hr']
  obtain ⟨step', st₁', run', abreast₁⟩ :=
    tracks_stepOut built shape plain keeps asks first st st' abreast step st₁ run
  have leads := ensures_stepOut ready (keeps e₀.Grows) flags has st abreast.first.toGrows step st₁ run
  have leads' := ensures_stepOut ready (keeps e₀.Grows) (flags.only k) has st' abreast.second.toGrows
    step' st₁' run'
  have kept := (keeps_stepOut keeps_true (keeps st.environment.Grows) flags t).ensures st
    ⟨.refl _, trivial⟩ step st₁ run
  have kept' := (keeps_stepOut keeps_true (keeps st'.environment.Grows) (flags.only k) t).ensures st'
    ⟨.refl _, trivial⟩ step' st₁' run'
  exact ⟨step', st₁', run', leads.1, leads'.1, abreast₁, kept.1, kept'.1⟩

/-- The search outwards for several kinds, and the one for one of them. -/
theorem tracks_collectTypesWith {fuel fuel' : Nat} {e e' : Environment} {t : TypeId}
    {visited visited' : List TypeId} (first : Environment.MakesFirst c t)
    (ends : e₀.wayOut fuel' t = .ok ()) (visits : VisitedTwins e₀ (k = .variable) e e' visited visited') :
    Tracks (AbreastFrom e₀ k (k = .variable) e e') (collectTypesWith typeOf flags fuel t visited)
      (collectTypesWith typeOf (flags.only k) fuel' t visited') fun x x' st st' =>
        x = false ∧ x' = false ∧ Abreast e₀ k (k = .variable) st st' := by
  have ready := Environment.build_ready built
  have closed := ready.sound.closed
  induction fuel' generalizing fuel e e' t visited visited' with
  | zero => cases ends
  | succ fuel' ih =>
  cases fuel with
  | zero =>
    intro st st' _ x st₁ run
    rw [collectTypesWith] at run
    cases run
  | succ fuel =>
    have has := first.has built
    rw [collectTypesWith_succ, collectTypesWith_succ]
    refine Tracks.bind ((parallel_offerType closed asks has).grown (keeps_offerType keeps_true flags t)
      (keeps_offerType keeps_true (flags.only k) t)) fun x x' => Tracks.from_states ?_
    rintro st st' ⟨rfl, rfl, abreast⟩
    simp only [Bool.false_eq_true, if_false]
    refine Tracks.bind ((tracks_collectInherited closed asks (.kept (.inr has)) visits).weaken ?_
      fun _ _ _ _ h => h) fun found found' => Tracks.from_states ?_
    · rintro _ _ ⟨rfl, rfl⟩
      exact abreast
    rintro st₁ st₁' visit
    refine Tracks.bind (tracks_stepOutFrom built shape plain keeps asks first visit.toAbreast)
      fun step step' => Tracks.from_states ?_
    rintro st₂ st₂' ⟨rfl, rfl, abreast₂⟩
    rw [Environment.wayOut] at ends
    cases around : e₀.typeAround t with
    | none => exact .pure fun _ _ h => ⟨rfl, rfl, by rw [h.1, h.2]; exact abreast₂.toAbreast⟩
    | some u =>
      rw [around] at ends
      refine (ih (first.typeAround built around) ends
        (visit.visits.mono abreast₂.grown abreast₂.grown')).weaken ?_ fun _ _ _ _ h => h
      rintro _ _ ⟨rfl, rfl⟩
      exact ⟨abreast₂.toAbreast, .refl _, .refl _⟩

/-- A type with its members and what encloses it. -/
theorem parallel_collectTypes {t : TypeId} (first : Environment.MakesFirst c t) :
    Parallel e₀ k (k = .variable) (collectTypes typeOf flags t)
      (collectTypes typeOf (flags.only k) t) := by
  have ready := Environment.build_ready built
  have has := first.has built
  intro st st' abreast x st₁ run
  rw [collectTypes, SearchM.outcome_read_bind] at run
  rw [collectTypes, SearchM.outcome_read_bind]
  have ends := wayOut_of_collected ready (keeps e₀.Grows) flags _ has [] st abreast.first.toGrows
    x st₁ run
  have ends' : e₀.wayOut (st'.environment.store.types.size + 1) t = .ok () :=
    Environment.wayOut_enough ready.sound.closed ends has
      (Nat.le_succ_of_le abreast.second.store.size)
  exact tracks_collectTypesWith built shape plain keeps asks first ends' .nil st st'
    ⟨abreast, .refl _, .refl _⟩ x st₁ run

end Walks

end Abreast

end JavaScope
