import JavaScope.Scope.Expression
import JavaScope.Proofs.Environment.Agreement
import JavaScope.Proofs.Scope.Course

/-!
# What requests make of a log

A collection takes the first binding of every signature, and a search stops at its target or at a
binding that hides it. On one log they agree: the search finds its target exactly if the collection
takes it.
-/

namespace JavaScope

/-! ## Handing out a collection -/

/-- A sweep that comes through keeps, in order, what can be accessed. -/
theorem sweep_eq_iff {visible : BindingId → Except Fault Bool} {kept rest kept' : List BindingId} :
    Collection.sweep visible kept rest = (kept', none) ↔
      (∀ b ∈ rest, ∃ x, visible b = .ok x) ∧
        kept' = (rest.filter fun b => visible b = .ok true).reverse ++ kept := by
  induction rest generalizing kept with
  | nil => simp [Collection.sweep, eq_comm]
  | cons b rest ih =>
    unfold Collection.sweep
    cases verdict : visible b with
    | error fault => simp [verdict]
    | ok x => cases x <;> simp [verdict, ih]

/-- The bindings that a collection hands out if every check of access answers. -/
def Collection.shown (s : Store) (c : Collection) : List BindingId :=
  if c.flags.checkVisibility then
    c.bindings.filter fun b => s.isVisible b c.parentType = .ok true
  else c.bindings

/-- A collection hands out what it took, if access is checked then as far as it can be accessed; then
every check has to answer. -/
theorem requested_eq_ok_iff {s : Store} {c : Collection} {ds : List BindingId} :
    (∃ c', outcome (Collection.requested s) c = (.ok ds, c')) ↔
      (c.flags.checkVisibility = true → ∀ b ∈ c.bindings, ∃ x, s.isVisible b c.parentType = .ok x) ∧
        ds = c.shown s := by
  have get : outcome get c = (.ok c, c) := rfl
  rw [Collection.requested, outcome_bind_of_ok get, Collection.shown]
  by_cases checked : c.flags.checkVisibility = true
  · simp only [checked, if_true, true_implies]
    rcases swept : Collection.sweep (fun b => s.isVisible b c.parentType) [] c.bindings.reverse with
      ⟨kept, fault⟩
    dsimp only
    rw [outcome_bind_of_ok (outcome_set _ _)]
    cases fault with
    | some fault =>
      refine iff_of_false (by rintro ⟨c', ⟨⟩⟩) ?_
      rintro ⟨answers, -⟩
      obtain ⟨_, through⟩ : ∃ kept', Collection.sweep (fun b => s.isVisible b c.parentType) []
          c.bindings.reverse = (kept', none) :=
        ⟨_, sweep_eq_iff.2 ⟨fun b hb => answers b (List.mem_reverse.1 hb), rfl⟩⟩
      rw [swept] at through
      cases through
    | none =>
      obtain ⟨answers, same⟩ := sweep_eq_iff.1 swept
      rw [List.filter_reverse, List.reverse_reverse, List.append_nil] at same
      constructor
      · rintro ⟨c', ⟨⟩⟩
        exact ⟨fun b hb => answers b (List.mem_reverse.2 hb), same⟩
      · rintro ⟨-, rfl⟩
        exact ⟨_, by rw [same]; rfl⟩
  · simp [checked, eq_comm]

theorem mem_requested {s : Store} {c c' : Collection} {ds : List BindingId}
    (run : outcome (Collection.requested s) c = (.ok ds, c')) (b : BindingId) :
    b ∈ ds ↔ b ∈ c.bindings ∧
      (c.flags.checkVisibility = true → s.isVisible b c.parentType = .ok true) := by
  obtain ⟨-, rfl⟩ := requested_eq_ok_iff.1 ⟨c', run⟩
  by_cases checked : c.flags.checkVisibility = true <;> simp [Collection.shown, checked]

/-- Where access is not checked, a collection hands out all that it took. -/
theorem Collection.outcome_requested_of_unchecked {s : Store} {c : Collection}
    (unchecked : c.flags.checkVisibility = false) :
    outcome (Collection.requested s) c = (.ok c.bindings, c) := by
  rw [Collection.requested, outcome_bind_of_ok (outcome_get c), unchecked]
  rfl

/-- Where access is checked, a collection that answers has checked all that it took. -/
theorem requested_answers {s : Store} {c c' : Collection} {ds : List BindingId}
    (checked : c.flags.checkVisibility = true)
    (run : outcome (Collection.requested s) c = (.ok ds, c')) :
    ∀ b ∈ c.bindings, ∃ x, s.isVisible b c.parentType = .ok x :=
  (requested_eq_ok_iff.1 ⟨c', run⟩).1 checked

theorem Scope.outcome_collected {request request' : Collection}
    {search : SearchM Collection Bool} {e e' : Environment} {stopped : Bool}
    (searched : outcome search ⟨e, request⟩ = (.ok stopped, ⟨e', request'⟩)) :
    outcome (collected request search) e =
      ((outcome (Collection.requested e'.store) request').1, e') := by
  have read : outcome (EnvironmentM.read Environment.store) e' = (.ok e'.store, e') := rfl
  rw [collected, outcome_bind_of_ok (outcome_start_eq_ok.2 searched)]
  dsimp only
  rw [outcome_bind_of_ok read]
  show outcome (match outcome (Collection.requested e'.store) request' with
    | (answer, _) => ofExcept answer) e' = _
  rcases outcome (Collection.requested e'.store) request' with ⟨answer, request''⟩
  exact outcome_ofExcept answer e'

/-- A search that fails collects nothing. -/
theorem Scope.outcome_collected_of_error {request request' : Collection}
    {search : SearchM Collection Bool} {e e' : Environment} {f : Fault}
    (failed : outcome search ⟨e, request⟩ = (.error f, ⟨e', request'⟩)) :
    outcome (collected request search) e = (.error f, e') := by
  have start : outcome (SearchM.start request search) e = (.error f, e') := by
    show (match outcome search ⟨e, request⟩ with
      | (answer, st) => (answer.map fun a => (a, st.request), st.environment)) = _
    rw [failed]
    rfl
  rw [collected, outcome_bind_of_error start]

/-- What is collected is what the collection hands out after its search. -/
theorem Scope.collected_eq_ok {request : Collection} {search : SearchM Collection Bool}
    {e e' : Environment} {ds : List BindingId}
    (run : outcome (collected request search) e = (.ok ds, e')) :
    ∃ stopped k k', outcome search ⟨e, request⟩ = (.ok stopped, ⟨e', k⟩) ∧
      outcome (Collection.requested e'.store) k = (.ok ds, k') := by
  obtain ⟨⟨stopped, k⟩, e₁, first, -⟩ := outcome_bind_eq_ok.1 run
  have searched := outcome_start_eq_ok.1 first
  rw [outcome_collected searched] at run
  rcases requested : outcome (Collection.requested e₁.store) k with ⟨answer, k'⟩
  rw [requested] at run
  cases run
  exact ⟨stopped, k, k', searched, requested⟩

/-- A candidate changes neither the type that a collection looks from nor its flags. -/
theorem keeps_settings (parentType : Option TypeId) (flags : Flags) (s : Store)
    (candidate : Option BindingId) :
    Keeps (fun c : Collection => c.parentType = parentType ∧ c.flags = flags)
      (Request.accept s candidate) := by
  show Keeps _ (Collection.accept s candidate)
  unfold Collection.accept
  split
  · exact .pure false
  · refine (Keeps.ofExcept _).bind fun signature => Keeps.bind (.modify fun c h => ?_) fun _ =>
      .pure false
    split
    · exact h
    · exact h

/-! ## One candidate -/

theorem outcome_accept_collection (s : Store) (b : BindingId) (c : Collection) :
    outcome (Request.accept s (some b)) c =
      match s.signature b with
      | .error f => (.error f, c)
      | .ok x => (.ok false, if c.signatures.contains x then c
          else { c with bindings := c.bindings ++ [b], signatures := x :: c.signatures }) := by
  show outcome (Collection.accept s (some b)) c = _
  rw [Collection.accept, outcome_bind, outcome_ofExcept]
  cases s.signature b <;> rfl

theorem outcome_offer_collection (b : BindingId) (st : Searching Collection) :
    outcome (SearchM.offer (some b)) st =
      match st.environment.store.signature b with
      | .error f => (.error f, st)
      | .ok x => (.ok false, { st with
          request := if st.request.signatures.contains x then st.request
            else { st.request with
              bindings := st.request.bindings ++ [b]
              signatures := x :: st.request.signatures } }) := by
  have run : outcome (SearchM.offer (some b)) st =
      ((outcome (Request.accept st.environment.store (some b)) st.request).1,
        { st with
          request := (outcome (Request.accept st.environment.store (some b)) st.request).2 }) := rfl
  rw [run, outcome_accept_collection]
  cases st.environment.store.signature b <;> rfl

/-- A collection that answers goes on. It has left a candidate out, whose signature it had taken, or
has taken the candidate and its signature. -/
theorem accept_collection_cases {s : Store} {candidate : Option BindingId} {c c' : Collection}
    {stopped : Bool} (run : outcome (Request.accept s candidate) c = (.ok stopped, c')) :
    stopped = false ∧ (candidate = none ∧ c' = c ∨
      ∃ b x, candidate = some b ∧ s.signature b = .ok x ∧ (x ∈ c.signatures ∧ c' = c ∨
        x ∉ c.signatures ∧
          c' = { c with bindings := c.bindings ++ [b], signatures := x :: c.signatures })) := by
  cases candidate with
  | none =>
    cases run
    exact ⟨rfl, .inl ⟨rfl, rfl⟩⟩
  | some b =>
    rw [outcome_accept_collection] at run
    cases signature : s.signature b with
    | error f =>
      rw [signature] at run
      cases run
    | ok x =>
      rw [signature] at run
      cases run
      refine ⟨rfl, .inr ⟨b, x, rfl, signature, ?_⟩⟩
      by_cases seen : x ∈ c.signatures
      · exact .inl ⟨seen, by simp [seen]⟩
      · exact .inr ⟨seen, by simp [seen]⟩

/-- What a search makes of a candidate. -/
theorem outcome_accept_search (s : Store) (candidate : Option BindingId) (r : Search) :
    outcome (Request.accept s candidate) r =
      if r.found then (.ok true, r)
      else match candidate, r.target with
        | none, _ => (.ok false, r)
        | some _, none => (.error .missing, r)
        | some b, some target =>
          if b.kind ≠ target.kind then (.ok false, r)
          else if b = target ∨ s.declarationOf b = target then
            if r.flags.checkVisibility then
              match s.isVisible b r.parentType with
              | .ok visible => (.ok true, { r with found := true, visible := visible })
              | .error f => (.error f, { r with found := true })
            else (.ok true, { r with found := true })
          else
            match Search.hides s b target with
            | .ok hidden => (.ok hidden,
                if hidden && r.flags.checkVisibility then { r with visible := false } else r)
            | .error f => (.error f, r) := by
  have get : outcome get r = (.ok r, r) := rfl
  show outcome (Search.accept s candidate) r = _
  rw [Search.accept, outcome_bind_of_ok get]
  by_cases found : r.found = true
  · rw [if_pos found, if_pos found, outcome_pure]
  rw [if_neg found, if_neg found]
  cases candidate with
  | none => rfl
  | some b =>
    cases looks : r.target with
    | none => rfl
    | some target =>
      have needs : outcome (ofExcept (needed (some target))) r = (.ok target, r) := rfl
      dsimp only
      rw [outcome_bind_of_ok needs]
      by_cases kind : b.kind ≠ target.kind
      · rw [if_pos kind, if_pos kind, outcome_pure]
      rw [if_neg kind, if_neg kind]
      by_cases hit : b = target ∨ s.declarationOf b = target
      · rw [if_pos hit, if_pos hit, outcome_bind_of_ok (outcome_set _ _)]
        cases r.flags.checkVisibility
        · rfl
        · simp only [if_true]
          rw [outcome_bind, outcome_ofExcept]
          cases s.isVisible b r.parentType <;> rfl
      · rw [if_neg hit, if_neg hit, outcome_bind, outcome_ofExcept]
        cases Search.hides s b target with
        | error f => rfl
        | ok hidden =>
          cases hidden
          · rfl
          · cases r.flags.checkVisibility <;> rfl

/-- What a search for `d` that has not found it makes of a candidate. -/
inductive Search.Takes (s : Store) (d : BindingId) (r : Search) :
    Option BindingId → Except Fault Bool × Search → Prop
  | ignored {candidate : Option BindingId} : (∀ b ∈ candidate, b.kind ≠ d.kind) →
      Takes s d r candidate (.ok false, r)
  | hit {b : BindingId} : b.kind = d.kind → b = d ∨ s.declarationOf b = d →
      r.flags.checkVisibility = false → Takes s d r (some b) (.ok true, { r with found := true })
  | checked {b : BindingId} {visible : Bool} : b.kind = d.kind → b = d ∨ s.declarationOf b = d →
      r.flags.checkVisibility = true → s.isVisible b r.parentType = .ok visible →
      Takes s d r (some b) (.ok true, { r with found := true, visible := visible })
  | unchecked {b : BindingId} {f : Fault} : b.kind = d.kind → b = d ∨ s.declarationOf b = d →
      r.flags.checkVisibility = true → s.isVisible b r.parentType = .error f →
      Takes s d r (some b) (.error f, { r with found := true })
  | compared {b : BindingId} {hidden : Bool} : b.kind = d.kind →
      ¬ (b = d ∨ s.declarationOf b = d) → Search.hides s b d = .ok hidden →
      Takes s d r (some b) (.ok hidden,
        if hidden && r.flags.checkVisibility then { r with visible := false } else r)
  | incomparable {b : BindingId} {f : Fault} : b.kind = d.kind →
      ¬ (b = d ∨ s.declarationOf b = d) → Search.hides s b d = .error f →
      Takes s d r (some b) (.error f, r)

theorem Search.takes_accept {s : Store} {r : Search} {d : BindingId} (target : r.target = some d)
    (fresh : r.found = false) (candidate : Option BindingId) :
    Takes s d r candidate (outcome (Request.accept s candidate) r) := by
  obtain ⟨sought, place, flags, found, visible⟩ := r
  obtain rfl : sought = some d := target
  obtain rfl : found = false := fresh
  rw [outcome_accept_search, if_neg Bool.false_ne_true]
  cases candidate with
  | none => exact .ignored nofun
  | some b =>
    dsimp only
    by_cases kind : b.kind = d.kind
    · rw [if_neg (not_not_intro kind)]
      by_cases hit : b = d ∨ s.declarationOf b = d
      · rw [if_pos hit]
        by_cases checked : flags.checkVisibility = true
        · rw [if_pos checked]
          cases told : s.isVisible b place with
          | ok accessible => exact .checked kind hit checked told
          | error f => exact .unchecked kind hit checked told
        · rw [if_neg checked]
          exact .hit kind hit (by simpa using checked)
      · rw [if_neg hit]
        cases hides : Search.hides s b d with
        | ok hidden => exact .compared kind hit hides
        | error f => exact .incomparable kind hit hides
    · rw [if_pos kind]
      exact .ignored fun _ same => Option.some.inj same ▸ kind

/-- What a search makes of a candidate as long as its target is not found, if it answers. -/
theorem accept_search_cases {s : Store} {candidate : Option BindingId} {r r' : Search}
    {d : BindingId} {stopped : Bool} (target : r.target = some d) (fresh : r.found = false)
    (run : outcome (Request.accept s candidate) r = (.ok stopped, r')) :
    candidate = none ∧ stopped = false ∧ r' = r ∨
      ∃ b, candidate = some b ∧
        (b.kind ≠ d.kind ∧ stopped = false ∧ r' = r ∨
          (b = d ∨ s.declarationOf b = d) ∧ stopped = true ∧ r'.found = true ∧
            (if r.flags.checkVisibility then s.isVisible b r.parentType = .ok r'.visible
              else r'.visible = r.visible) ∨
          b ≠ d ∧ s.declarationOf b ≠ d ∧ Search.hides s b d = .ok stopped ∧ r'.found = false ∧
            (stopped = false → r' = r)) := by
  have takes := Search.takes_accept (s := s) target fresh candidate
  rw [run] at takes
  cases takes with
  | ignored other =>
    cases candidate with
    | none => exact .inl ⟨rfl, rfl, rfl⟩
    | some b => exact .inr ⟨b, rfl, .inl ⟨other b rfl, rfl, rfl⟩⟩
  | @hit b _ hit free => exact .inr ⟨b, rfl, .inr (.inl ⟨hit, rfl, rfl, by simp [free]⟩)⟩
  | @checked b _ _ hit asked visible =>
    exact .inr ⟨b, rfl, .inr (.inl ⟨hit, rfl, rfl, by simp [asked, visible]⟩)⟩
  | @compared b _ _ miss hides =>
    obtain ⟨other, other'⟩ := not_or.1 miss
    refine .inr ⟨b, rfl, .inr (.inr ⟨other, other', hides, ?_, ?_⟩)⟩
    · split <;> exact fresh
    · rintro rfl
      rfl

/-- A candidate hides a declaration of its name and signature; one that does not hide it differs in
one of them. -/
theorem Search.hides_cases {s : Store} {b d : BindingId} {hidden : Bool} {x : String}
    (signature : s.signature (s.declarationOf b) = .ok x) (run : Search.hides s b d = .ok hidden) :
    hidden = true ∧ s.signature d = .ok x ∨
      hidden = false ∧ (s.name (s.declarationOf b) ≠ s.name d ∨
        ∃ y, s.signature d = .ok y ∧ x ≠ y) := by
  unfold Search.hides at run
  by_cases named : s.name (s.declarationOf b) = s.name d
  · cases signature' : s.signature d with
    | error f =>
      simp only [named, beq_self_eq_true, if_true, signature, signature'] at run
      cases run
    | ok y =>
      simp only [named, beq_self_eq_true, if_true, signature, signature'] at run
      cases run
      by_cases same : x = y
      · exact .inl ⟨by simp [same], by rw [same]⟩
      · exact .inr ⟨by simp [same], .inr ⟨y, rfl, same⟩⟩
  · simp only [beq_eq_false_iff_ne.2 named] at run
    cases run
    exact .inr ⟨rfl, .inl named⟩

/-- A search for a declaration is not changed by candidates that do not stop it. -/
theorem replay_search_unstopped {log : List Offer} {r r' : Search} {d : BindingId}
    (target : r.target = some d) (fresh : r.found = false)
    (run : outcome (replay log) r = (.ok false, r')) : r' = r := by
  induction log with
  | nil =>
    cases run
    rfl
  | cons o rest ih =>
    obtain ⟨stopped, r₁, first, last⟩ := outcome_bind_eq_ok.1 run
    cases stopped with
    | true => cases last
    | false =>
      rcases accept_search_cases target fresh first with
        ⟨-, -, rfl⟩ | ⟨b, -, ⟨-, -, rfl⟩ | ⟨-, stops, -⟩ | ⟨-, -, -, -, same⟩⟩
      · exact ih last
      · exact ih last
      · cases stops
      · rw [same rfl] at last
        exact ih last

/-! ## A whole log -/

/-- The offer is made in a store that has grown from `s₀`, and a type that is offered is a plain one
of `s₀`. -/
structure Offer.From (s₀ : Store) (o : Offer) : Prop where
  grown : s₀.Grows o.store
  plain : ∀ t, o.candidate = some (.type t) → s₀.IsPlain t

/-- The binding has the signature in a store that has grown from `s₀`. -/
def Store.Signs (s₀ : Store) (b : BindingId) (x : String) : Prop :=
  ∃ s, s₀.Grows s ∧ s.signature b = .ok x

/-- The collection took a binding of the signature of `d`. -/
def Collection.HasSignatureOf (s₀ : Store) (d : BindingId) (c : Collection) : Prop :=
  ∃ x ∈ c.signatures, s₀.Signs d x

/-- How a search for `d` with the request `r` ends, when a collection without the signature of `d`
took the same candidates. -/
inductive Verdict (s₀ : Store) (d : BindingId) (r : Search) (c : Collection) : Bool → Search → Prop
  | undecided : d ∉ c.bindings → ¬ c.HasSignatureOf s₀ d → Verdict s₀ d r c false r
  | found {r' : Search} : d ∈ c.bindings → c.HasSignatureOf s₀ d → r'.found = true →
      (if r.flags.checkVisibility then
        ∃ s, s₀.Grows s ∧ s.isVisible d r.parentType = .ok r'.visible
      else r'.visible = r.visible) → Verdict s₀ d r c true r'
  | hidden {r' : Search} : d ∉ c.bindings → c.HasSignatureOf s₀ d → r'.found = false →
      Verdict s₀ d r c true r'

section Log

variable {s₀ : Store} {d : BindingId} (closed : s₀.Closed)
  (names : ∀ m, '(' ∉ (s₀.method m).name.toList) (hd : ∀ t, d = .type t → s₀.Has (.type t))

theorem Store.Grows.declarationOf_eq {s : Store} (h : s₀.Grows s) {b : BindingId}
    (plain : ∀ t, b = .type t → s₀.IsPlain t) : s.declarationOf b = b := by
  cases b with
  | type t =>
    obtain ⟨has, generic⟩ := plain t rfl
    show BindingId.type (s.declarationOfType t) = .type t
    rw [Store.declarationOfType, h.kept t has, generic]
    rfl
  | «variable» v => rfl
  | method m => rfl

theorem Store.Grows.name_eq {s : Store} (h : s₀.Grows s) {b : BindingId}
    (has : ∀ t, b = .type t → s₀.Has (.type t)) : s.name b = s₀.name b := by
  cases b with
  | type t => exact congrArg TypeBinding.name (h.kept t (has t rfl))
  | «variable» v => exact congrArg VariableBinding.name (h.variable_eq v)
  | method m => exact congrArg MethodBinding.name (h.method_eq m)

/-- A collection takes a binding of the signature of `d`. -/
theorem accept_takes {s : Store} {b : BindingId} {c c' : Collection} {stopped : Bool} {x : String}
    (absent : d ∉ c.bindings) (untaken : ¬ c.HasSignatureOf s₀ d) (signature : s.signature b = .ok x)
    (same : s₀.Signs d x) (run : outcome (Request.accept s (some b)) c = (.ok stopped, c')) :
    (d ∈ c'.bindings ↔ d = b) ∧ c'.HasSignatureOf s₀ d := by
  rcases (accept_collection_cases run).2 with ⟨⟨⟩, -⟩ | ⟨b', x', ⟨⟩, signature', taken⟩
  cases signature.symm.trans signature'
  rcases taken with ⟨seen, -⟩ | ⟨-, rfl⟩
  · cases untaken ⟨x, seen, same⟩
  · exact ⟨by simp [absent], x, List.mem_cons_self, same⟩

/-- A collection does not come by `d` or its signature through a binding of another signature. -/
theorem accept_skips {s : Store} {b : BindingId} {c c' : Collection} {stopped : Bool} {x : String}
    (grown : s₀.Grows s) (absent : d ∉ c.bindings) (untaken : ¬ c.HasSignatureOf s₀ d)
    (signature : s.signature b = .ok x) (apart : ¬ s₀.Signs d x)
    (run : outcome (Request.accept s (some b)) c = (.ok stopped, c')) :
    d ∉ c'.bindings ∧ ¬ c'.HasSignatureOf s₀ d := by
  rcases (accept_collection_cases run).2 with ⟨⟨⟩, -⟩ | ⟨b', x', ⟨⟩, signature', taken⟩
  cases signature.symm.trans signature'
  rcases taken with ⟨-, rfl⟩ | ⟨-, rfl⟩
  · exact ⟨absent, untaken⟩
  have other : d ≠ b := by
    rintro rfl
    exact apart ⟨s, grown, signature⟩
  refine ⟨by simp [absent, other], ?_⟩
  rintro ⟨y, member, signs⟩
  rcases List.mem_cons.1 member with rfl | member
  · exact apart signs
  · exact untaken ⟨y, member, signs⟩

include names hd in
theorem Signs.kind_and_name_eq {s : Store} {b : BindingId} {x : String} (grown : s₀.Grows s)
    (signature : s.signature b = .ok x) (signs : s₀.Signs d x) :
    b.kind = d.kind ∧ s.name b = s.name d := by
  obtain ⟨s', grown', signature'⟩ := signs
  have same := Store.kind_and_name_eq_of_signature (fun m => by rw [grown.method_eq]; exact names m)
    (fun m => by rw [grown'.method_eq]; exact names m) signature signature'
  rw [grown.name_eq hd, ← grown'.name_eq hd]
  exact same

include closed hd

theorem Signs.unique {x y : String} (hx : s₀.Signs d x) (hy : s₀.Signs d y) : x = y := by
  obtain ⟨s, hs, hx⟩ := hx
  obtain ⟨s', hs', hy⟩ := hy
  exact Store.signature_agree closed hs hs' hd hx hy

/-- A collection with the signature of a binding neither takes nor loses the binding. -/
theorem accept_settled {o : Offer} (from₀ : o.From s₀) {c c' : Collection} {stopped : Bool}
    (taken : c.HasSignatureOf s₀ d)
    (run : outcome (Request.accept o.store o.candidate) c = (.ok stopped, c')) :
    (d ∈ c'.bindings ↔ d ∈ c.bindings) ∧ c'.HasSignatureOf s₀ d := by
  rcases (accept_collection_cases run).2 with
    ⟨-, rfl⟩ | ⟨b, x, -, signature, ⟨-, rfl⟩ | ⟨unseen, rfl⟩⟩
  · exact ⟨Iff.rfl, taken⟩
  · exact ⟨Iff.rfl, taken⟩
  · obtain ⟨y, member, signs⟩ := taken
    refine ⟨?_, y, List.mem_cons_of_mem _ member, signs⟩
    have other : d ≠ b := by
      -- equal bindings have equal signatures, also in stores that have grown apart
      rintro rfl
      have same := Signs.unique closed hd ⟨o.store, from₀.grown, signature⟩ signs
      exact unseen (same ▸ member)
    simp [other]

theorem replay_settled {log : List Offer} (from₀ : ∀ o ∈ log, o.From s₀) {c c' : Collection}
    {stopped : Bool} (taken : c.HasSignatureOf s₀ d)
    (run : outcome (replay log) c = (.ok stopped, c')) :
    (d ∈ c'.bindings ↔ d ∈ c.bindings) ∧ c'.HasSignatureOf s₀ d := by
  induction log generalizing c with
  | nil =>
    cases run
    exact ⟨Iff.rfl, taken⟩
  | cons o rest ih =>
    obtain ⟨stopped', c₁, first, run⟩ := outcome_bind_eq_ok.1 run
    obtain ⟨same, taken'⟩ := accept_settled closed hd (from₀ o List.mem_cons_self) taken first
    cases (accept_collection_cases first).1
    obtain ⟨same', taken''⟩ := ih (fun o ho => from₀ o (List.mem_cons_of_mem _ ho)) taken' run
    exact ⟨same'.trans same, taken''⟩

include names

/-- A candidate leaves a search undecided as long as the collection does not take its signature. -/
theorem accept_verdict {o : Offer} (from₀ : o.From s₀) {c c' : Collection} {r r' : Search}
    {stopped stopped' : Bool} (absent : d ∉ c.bindings) (untaken : ¬ c.HasSignatureOf s₀ d)
    (target : r.target = some d) (fresh : r.found = false)
    (run : outcome (Request.accept o.store o.candidate) c = (.ok stopped, c'))
    (run' : outcome (Request.accept o.store o.candidate) r = (.ok stopped', r')) :
    Verdict s₀ d r c' stopped' r' := by
  obtain ⟨s, candidate⟩ := o
  have grown : s₀.Grows s := from₀.grown
  rcases accept_search_cases target fresh run' with ⟨rfl, rfl, rfl⟩ | ⟨b, rfl, searched⟩
  · cases run
    exact .undecided absent untaken
  rcases (accept_collection_cases run).2 with ⟨⟨⟩, -⟩ | ⟨b, x, ⟨⟩, signature, -⟩
  have declaration : s.declarationOf b = b :=
    grown.declarationOf_eq fun t ht => from₀.plain t (congrArg some ht)
  have undecided : ¬ s₀.Signs d x → Verdict s₀ d r c' false r := by
    intro apart
    obtain ⟨absent', untaken'⟩ := accept_skips grown absent untaken signature apart run
    exact .undecided absent' untaken'
  have alike := Signs.kind_and_name_eq names hd grown signature
  rcases searched with ⟨kind, rfl, rfl⟩ | ⟨hit, rfl, found, visible⟩ | ⟨other, -, hides, unfound, same⟩
  · exact undecided fun signs => kind (alike signs).1
  · rw [declaration, or_self] at hit
    subst hit
    obtain ⟨taken, signed⟩ := accept_takes absent untaken signature ⟨s, grown, signature⟩ run
    refine .found (taken.2 rfl) signed found ?_
    by_cases checked : r.flags.checkVisibility = true
    · rw [if_pos checked] at visible ⊢
      exact ⟨s, grown, visible⟩
    · rw [if_neg checked] at visible ⊢
      exact visible
  · rcases Search.hides_cases (by rwa [declaration]) hides with ⟨rfl, signature'⟩ | ⟨rfl, differs⟩
    · obtain ⟨taken, signed⟩ := accept_takes absent untaken signature ⟨s, grown, signature'⟩ run
      exact .hidden (fun h => other (taken.1 h).symm) signed unfound
    · rw [same rfl]
      refine undecided fun signs => ?_
      rcases differs with named | ⟨y, signature', apart⟩
      · rw [declaration] at named
        exact named (alike signs).2
      · exact apart (Signs.unique closed hd signs ⟨s, grown, signature'⟩)

/-- On one log, a search ends as its target fares in the collection. -/
theorem replay_verdict {log : List Offer} (from₀ : ∀ o ∈ log, o.From s₀) {c c' : Collection}
    {r r' : Search} {stopped stopped' : Bool} (absent : d ∉ c.bindings)
    (untaken : ¬ c.HasSignatureOf s₀ d) (target : r.target = some d) (fresh : r.found = false)
    (run : outcome (replay log) c = (.ok stopped, c'))
    (run' : outcome (replay log) r = (.ok stopped', r')) : Verdict s₀ d r c' stopped' r' := by
  induction log generalizing c with
  | nil =>
    cases run
    cases run'
    exact .undecided absent untaken
  | cons o rest ih =>
    obtain ⟨goes, c₁, first, run⟩ := outcome_bind_eq_ok.1 run
    obtain ⟨goes', r₁, first', run'⟩ := outcome_bind_eq_ok.1 run'
    cases (accept_collection_cases first).1
    have rest₀ : ∀ o ∈ rest, o.From s₀ := fun o ho => from₀ o (List.mem_cons_of_mem _ ho)
    have verdict := accept_verdict closed names hd (from₀ o List.mem_cons_self) absent untaken
      target fresh first first'
    cases verdict with
    | undecided absent' untaken' => exact ih rest₀ absent' untaken' run run'
    | found taken signed found visible =>
      cases run'
      obtain ⟨same, signed'⟩ := replay_settled closed hd rest₀ signed run
      exact .found (same.2 taken) signed' found visible
    | hidden absent' signed unfound =>
      cases run'
      obtain ⟨same, signed'⟩ := replay_settled closed hd rest₀ signed run
      exact .hidden (fun h => absent' (same.1 h)) signed' unfound

end Log

end JavaScope
