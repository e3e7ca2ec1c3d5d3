import JavaScope.Proofs.Binding.Visibility
import JavaScope.Proofs.Scope.Feed

/-!
# How a search fares

A search may be offered candidates in any order, also after it asked to stop. A candidate of the
target's kind hits the target or hides it. Once the target is hit the search does not change any more;
a candidate that hides it only asks to stop. Feeding a new search ends at the first candidate that
does either.
-/

namespace JavaScope

namespace Search

/-! ## Hits and hiders -/

/-- The candidate is the target or a use of it. -/
def IsHit (s : Store) (target : BindingId) (candidate : Option BindingId) : Prop :=
  ∃ b, candidate = some b ∧ b.kind = target.kind ∧ (b = target ∨ s.declarationOf b = target)

instance (s : Store) (target : BindingId) : DecidablePred (IsHit s target)
  | none => isFalse nofun
  | some b => decidable_of_iff (b.kind = target.kind ∧ (b = target ∨ s.declarationOf b = target))
    ⟨fun h => ⟨b, rfl, h⟩, fun ⟨_, same, h⟩ => Option.some.inj same ▸ h⟩

/-- The candidate is no hit, but declares the target's name and signature. -/
def IsHider (s : Store) (target : BindingId) (candidate : Option BindingId) : Prop :=
  ∃ b, candidate = some b ∧ b.kind = target.kind ∧ ¬ (b = target ∨ s.declarationOf b = target) ∧
    s.name (s.declarationOf b) = s.name target ∧
    s.signature (s.declarationOf b) = s.signature target

/-- A search that has not hit its target stops at this candidate. -/
def StopsAt (s : Store) (target : BindingId) (candidate : Option BindingId) : Prop :=
  IsHit s target candidate ∨ IsHider s target candidate

/-- A search after some candidates, whatever it answered to them. -/
def after (s : Store) (candidates : List (Option BindingId)) (r : Search) : Search :=
  candidates.foldl (fun r candidate => (outcome (Request.accept s candidate) r).2) r

theorem after_concat (s : Store) (candidates : List (Option BindingId)) (c : Option BindingId)
    (r : Search) : after s (candidates ++ [c]) r =
      (outcome (Request.accept s c) (after s candidates r)).2 := by
  rw [after, List.foldl_append]
  rfl

section Candidates

variable {s : Store} {d : BindingId} {r : Search} {candidate : Option BindingId}

theorem IsHider.not_isHit (h : IsHider s d candidate) : ¬ IsHit s d candidate := by
  obtain ⟨b, rfl, -, other, -⟩ := h
  rintro ⟨b', ⟨⟩, -, hit⟩
  exact other hit

theorem hides_eq_ok (sound : s.IsSound) (b : BindingId) :
    ∃ hidden, hides s b d = .ok hidden ∧
      (hidden = true ↔ s.name (s.declarationOf b) = s.name d ∧
        s.signature (s.declarationOf b) = s.signature d) := by
  obtain ⟨x, hx⟩ := sound.answers_signature (s.declarationOf b)
  obtain ⟨y, hy⟩ := sound.answers_signature d
  unfold hides
  by_cases named : s.name (s.declarationOf b) = s.name d
  · exact ⟨x == y, by simp [named, hx, hy]; rfl, by simp [named, hx, hy]⟩
  · exact ⟨false, by simp [named]; rfl, by simp [named]⟩

/-! ## One candidate -/

/-- What a search for `d` answers to a candidate, and how it changes. -/
inductive Turn (s : Store) (d : BindingId) (r : Search) (candidate : Option BindingId) :
    Bool → Search → Prop
  | settled : r.found = true → Turn s d r candidate true r
  | hit {b : BindingId} {visible : Bool} : r.found = false → candidate = some b →
      IsHit s d candidate →
      (if r.flags.checkVisibility then s.isVisible b r.parentType = .ok visible
        else visible = r.visible) →
      Turn s d r candidate true { r with found := true, visible := visible }
  | hidden : r.found = false → IsHider s d candidate →
      Turn s d r candidate true { r with visible := r.visible && !r.flags.checkVisibility }
  | passed : r.found = false → ¬ StopsAt s d candidate → Turn s d r candidate false r

theorem not_stopsAt_of_kind (other : ∀ b ∈ candidate, b.kind ≠ d.kind) :
    ¬ StopsAt s d candidate := by
  rintro (⟨b, rfl, same, -⟩ | ⟨b, rfl, same, -⟩)
  · exact other b rfl same
  · exact other b rfl same

/-- Every candidate is taken in one of these ways. -/
theorem accept_turn (sound : s.IsSound) (target : r.target = some d) (candidate : Option BindingId) :
    ∃ stopped r', outcome (Request.accept s candidate) r = (.ok stopped, r') ∧
      Turn s d r candidate stopped r' := by
  cases fresh : r.found with
  | true =>
    rw [outcome_accept_search, if_pos fresh]
    exact ⟨true, r, rfl, .settled fresh⟩
  | false =>
    have takes := takes_accept (s := s) target fresh candidate
    generalize outcome (Request.accept s candidate) r = run at takes
    cases takes with
    | ignored other => exact ⟨false, r, rfl, .passed fresh (not_stopsAt_of_kind other)⟩
    | @hit b kind hit free =>
      exact ⟨true, _, rfl, .hit fresh rfl ⟨b, rfl, kind, hit⟩ (by simp [free])⟩
    | @checked b visible kind hit asked told =>
      exact ⟨true, _, rfl, .hit fresh rfl ⟨b, rfl, kind, hit⟩ (by simp [asked, told])⟩
    | @unchecked b f _ _ _ fails =>
      obtain ⟨accessible, told⟩ := sound.answers_isVisible b r.parentType
      cases told.symm.trans fails
    | @compared b hidden kind miss hides =>
      obtain ⟨hidden', hides', same⟩ := hides_eq_ok (d := d) sound b
      cases hides'.symm.trans hides
      cases hidden with
      | false =>
        refine ⟨false, _, rfl, .passed fresh ?_⟩
        rintro (⟨b', ⟨⟩, -, hits⟩ | ⟨b', ⟨⟩, -, -, alike⟩)
        · exact miss hits
        · exact absurd (same.2 alike) nofun
      | true =>
        refine ⟨true, _, ?_, .hidden fresh ⟨b, rfl, kind, miss, same.1 rfl⟩⟩
        cases checked : r.flags.checkVisibility <;> simp
    | @incomparable b f _ _ fails =>
      obtain ⟨hidden, hides, -⟩ := hides_eq_ok (d := d) sound b
      cases hides.symm.trans fails

end Candidates

/-! ## Any candidates -/

/-- What a search for `d` noted of some candidates. -/
structure Noted (s : Store) (d : BindingId) (parentType : Option TypeId) (flags : Flags)
    (candidates : List (Option BindingId)) (r : Search) : Prop where
  target : r.target = some d
  place : r.parentType = parentType
  asked : r.flags = flags
  found : r.found = true ↔ ∃ c ∈ candidates, IsHit s d c
  /-- As long as the target is not hit, a hider makes it inaccessible. -/
  hidden : r.found = false →
    (r.visible = false ↔ flags.checkVisibility = true ∧ ∃ c ∈ candidates, IsHider s d c)
  /-- The first hit tells whether the target can be accessed, whatever came before it. -/
  visible : ∀ b, candidates.find? (fun c => IsHit s d c) = some (some b) →
    if flags.checkVisibility then s.isVisible b parentType = .ok r.visible else r.visible = true

section Course

variable {s : Store} {d : BindingId} {parentType : Option TypeId} {flags : Flags}
  {candidates : List (Option BindingId)} {r : Search}

theorem noted_new (s : Store) (d : BindingId) (parentType : Option TypeId) (flags : Flags) :
    Noted s d parentType flags [] (new (some d) parentType flags) :=
  ⟨rfl, rfl, rfl, by simp [new], by simp [new], by simp⟩

theorem find?_isHit_eq_none (h : ¬ ∃ c ∈ candidates, IsHit s d c) :
    candidates.find? (fun c => IsHit s d c) = none :=
  List.find?_eq_none.2 fun c member => by simpa using fun hit => h ⟨c, member, hit⟩

theorem Turn.stopped_iff {candidate : Option BindingId} {stopped : Bool} {r' : Search}
    (turn : Turn s d r candidate stopped r') :
    stopped = true ↔ r.found = true ∨ StopsAt s d candidate := by
  cases turn with
  | settled found => simp [found]
  | hit fresh same hit told => simp [StopsAt, hit]
  | hidden fresh hider => simp [StopsAt, hider]
  | passed fresh passes => simp [fresh, passes]

/-- One more candidate is noted. -/
theorem Turn.noted {c : Option BindingId} {stopped : Bool} {r' : Search}
    (turn : Turn s d r c stopped r') (noted : Noted s d parentType flags candidates r) :
    Noted s d parentType flags (candidates ++ [c]) r' := by
  have hits : (∃ c' ∈ candidates ++ [c], IsHit s d c') ↔ r.found = true ∨ IsHit s d c := by
    rw [noted.found]
    simp [or_and_right, exists_or]
  have hiders : (∃ c' ∈ candidates ++ [c], IsHider s d c') ↔
      (∃ c' ∈ candidates, IsHider s d c') ∨ IsHider s d c := by
    simp [or_and_right, exists_or]
  have first : r.found = false → (candidates ++ [c]).find? (fun c => IsHit s d c) =
      [c].find? fun c => IsHit s d c := by
    intro fresh
    have none : ¬ ∃ c ∈ candidates, IsHit s d c := fun some => by simp [noted.found.2 some] at fresh
    rw [List.find?_append, find?_isHit_eq_none none, Option.none_or]
  cases turn with
  | settled found =>
    refine ⟨noted.target, noted.place, noted.asked, by rw [hits]; simp [found], by simp [found], ?_⟩
    obtain ⟨c', member, hit⟩ := noted.found.1 found
    have before : (candidates.find? fun c => IsHit s d c).isSome = true := by
      rw [List.find?_isSome]
      exact ⟨c', member, by simpa using hit⟩
    rw [List.find?_append, Option.or_of_isSome before]
    exact noted.visible
  | @hit b visible fresh same hit told =>
    subst same
    rw [noted.place, noted.asked] at told
    refine ⟨noted.target, noted.place, noted.asked, by rw [hits]; simp [hit], nofun, ?_⟩
    intro b' found
    rw [first fresh, List.find?_singleton, if_pos (by simpa using hit)] at found
    cases found
    by_cases checked : flags.checkVisibility = true
    · rw [if_pos checked] at told ⊢
      exact told
    · rw [if_neg checked] at told ⊢
      have accessible : ¬ r.visible = false := fun hidden => checked ((noted.hidden fresh).1 hidden).1
      exact told.trans (by simpa using accessible)
  | hidden fresh hider =>
    have other := hider.not_isHit
    refine ⟨noted.target, noted.place, noted.asked, by rw [hits]; simp [fresh, other], ?_, ?_⟩
    · intro _
      rw [hiders, Bool.and_eq_false_iff, noted.hidden fresh, noted.asked]
      simpa [hider] using fun checked _ _ _ => checked
    · rw [first fresh]
      simp [other]
  | passed fresh passes =>
    obtain ⟨other, harmless⟩ := not_or.1 passes
    refine ⟨noted.target, noted.place, noted.asked, by rw [hits]; simp [other], ?_, ?_⟩
    · rw [hiders]
      simpa [harmless] using noted.hidden
    · rw [first fresh]
      simp [other]

theorem noted_after (sound : s.IsSound) (d : BindingId) (parentType : Option TypeId) (flags : Flags)
    (candidates : List (Option BindingId)) :
    Noted s d parentType flags candidates (after s candidates (new (some d) parentType flags)) := by
  induction candidates using List.reverseRecOn with
  | nil => exact noted_new s d parentType flags
  | append_singleton candidates c noted =>
    obtain ⟨stopped, r', run, turn⟩ := accept_turn sound noted.target c
    rw [after_concat, run]
    exact turn.noted noted

/-! ## Feeding a search -/

section Fresh

variable (sound : s.IsSound) (target : r.target = some d) (fresh : r.found = false)

include sound target fresh

/-- A candidate that a search does not stop at leaves no trace. -/
theorem outcome_accept_of_passes {c : Option BindingId} (passes : ¬ StopsAt s d c) :
    outcome (Request.accept s c) r = (.ok false, r) := by
  obtain ⟨stopped, r', run, turn⟩ := accept_turn sound target c
  cases turn with
  | settled found => simp [found] at fresh
  | hit _ _ hit _ => exact absurd (.inl hit) passes
  | hidden _ hider => exact absurd (.inr hider) passes
  | passed => exact run

theorem after_of_passes (passes : ∀ c ∈ candidates, ¬ StopsAt s d c) : after s candidates r = r := by
  induction candidates with
  | nil => rfl
  | cons c rest ih =>
    have first := outcome_accept_of_passes sound target fresh (passes c List.mem_cons_self)
    calc after s (c :: rest) r = after s rest (outcome (Request.accept s c) r).2 := rfl
      _ = after s rest r := by rw [first]
      _ = r := ih fun c' hc' => passes c' (List.mem_cons_of_mem c hc')

/-- The candidates before the first one that a search stops at are drawn in vain. -/
theorem outcome_feed_append {before : List (Option BindingId)}
    (passes : ∀ c ∈ before, ¬ StopsAt s d c) (rest : List (Option BindingId)) :
    outcome (Request.feed s (before ++ rest)) r =
      ((outcome (Request.feed s rest) r).1.map fun (stopped, drawn) =>
        (stopped, before.length + drawn), (outcome (Request.feed s rest) r).2) := by
  induction before with
  | nil =>
    rw [List.nil_append]
    rcases outcome (Request.feed s rest) r with ⟨f | ⟨stopped, drawn⟩, r'⟩
    · rfl
    · simp [Except.map]
  | cons c before ih =>
    have first := outcome_accept_of_passes sound target fresh (passes c List.mem_cons_self)
    rw [List.cons_append, outcome_feed_cons, first]
    dsimp only
    rw [ih fun c' hc' => passes c' (List.mem_cons_of_mem c hc')]
    rcases outcome (Request.feed s rest) r with ⟨f | ⟨stopped, drawn⟩, r'⟩
    · rfl
    · simp [Except.map, Nat.add_right_comm]

end Fresh

end Course

/-- How a new search for `d` fares. After any candidates it noted what it has to and is going to
answer the next one by whether the target was hit before or it stops there, and if the target was hit
it never changes again. Fed with candidates, it draws all of them if it stops nowhere, and otherwise
those up to the first one at which it stops. -/
theorem new_course (s : Store) (sound : s.IsSound) (d : BindingId) (parentType : Option TypeId)
    (flags : Flags) :
    (∀ candidates,
      Noted s d parentType flags candidates (after s candidates (new (some d) parentType flags)) ∧
        ∀ c, ∃ stopped r',
          outcome (Request.accept s c) (after s candidates (new (some d) parentType flags)) =
            (.ok stopped, r') ∧
          (stopped = true ↔ (∃ c' ∈ candidates, IsHit s d c') ∨ StopsAt s d c) ∧
          ((∃ c' ∈ candidates, IsHit s d c') →
            r' = after s candidates (new (some d) parentType flags))) ∧
      (∀ candidates, (∀ c ∈ candidates, ¬ StopsAt s d c) →
        outcome (Request.feed s candidates) (new (some d) parentType flags) =
          (.ok (false, candidates.length), new (some d) parentType flags)) ∧
      ∀ before c rest, (∀ c' ∈ before, ¬ StopsAt s d c') → StopsAt s d c →
        ∃ r', outcome (Request.feed s (before ++ c :: rest)) (new (some d) parentType flags) =
            (.ok (true, before.length + 1), r') ∧
          r' = after s (before ++ [c]) (new (some d) parentType flags) ∧
          (IsHider s d c → r'.found = false ∧ r'.visible = !flags.checkVisibility) := by
  refine ⟨fun candidates => ?_, fun candidates passes => ?_, fun before c rest passes stops => ?_⟩
  · have noted := noted_after sound d parentType flags candidates
    refine ⟨noted, fun c => ?_⟩
    obtain ⟨stopped, r', run, turn⟩ := accept_turn sound noted.target c
    refine ⟨stopped, r', run, by rw [← noted.found]; exact turn.stopped_iff, fun hit => ?_⟩
    have found := noted.found.2 hit
    cases turn with
    | settled => rfl
    | hit fresh | hidden fresh | passed fresh => simp [found] at fresh
  · have fed := outcome_feed_append (r := new (some d) parentType flags) sound rfl rfl passes []
    rw [List.append_nil] at fed
    exact fed
  · have unchanged := after_of_passes (r := new (some d) parentType flags) sound rfl rfl passes
    obtain ⟨stopped, r', run, turn⟩ :=
      accept_turn (r := new (some d) parentType flags) sound rfl c
    obtain rfl : stopped = true := turn.stopped_iff.2 (.inr stops)
    refine ⟨r', ?_, ?_, fun hider => ?_⟩
    · rw [outcome_feed_append sound rfl rfl passes, outcome_feed_cons, run]
      rfl
    · rw [after_concat, unchanged, run]
    · cases turn with
      | settled found => cases found
      | hit _ _ hit => exact absurd hit hider.not_isHit
      | hidden => simp [new]

/-- A generic class, a use of it, and a subclass in another package which overrides a protected method
that takes such a use. -/
def overriding : Store where
  types := #[{ name := "Shape", package := "shapes" },
    { name := "Shape<T>", package := "shapes", kind := .parameterized, genericType := some ⟨0⟩ },
    { name := "Circle", package := "circles", superclass := some ⟨1⟩ }]
  methods := #[
    { name := "scale", modifiers := ⟨4⟩, declaringClass := some ⟨0⟩, parameterTypes := [some ⟨0⟩] },
    { name := "scale", modifiers := ⟨4⟩, declaringClass := some ⟨2⟩, parameterTypes := [some ⟨1⟩] }]

theorem overriding_isSound : overriding.IsSound where
  inherits := Store.not_inherits_of_listed (by decide)
  lies := Store.not_liesIn_of_listed (by decide)
  erases := Store.not_erasesTo_of_listed (by decide)
  interfaces := overriding.forall_of_listed (by decide) (by simp +contextual)
  bounds := overriding.forall_of_listed (by decide) (by simp +contextual)
  elements := overriding.forall_of_listed (by decide) (by simp +contextual)
  parameters := by
    rintro ⟨_ | _ | i⟩
    · decide
    · decide
    · exact List.not_mem_nil

/-- A search for the overridden method from the subclass: its override hides it at once, and it is
found if the search goes on. -/
theorem new_course_overriding :
    overriding.IsSound ∧ IsHider overriding (.method ⟨0⟩) (some (.method ⟨1⟩)) ∧
      IsHit overriding (.method ⟨0⟩) (some (.method ⟨0⟩)) ∧
      (∃ r, outcome (Request.feed overriding [none, some (.type ⟨1⟩), some (.method ⟨1⟩),
          some (.method ⟨0⟩)]) (new (some (.method ⟨0⟩)) (some ⟨2⟩) ⟨true, true, true, true⟩) =
        (.ok (true, 3), r) ∧ r.found = false ∧ r.visible = false) ∧
      (after overriding [none, some (.type ⟨1⟩), some (.method ⟨1⟩), some (.method ⟨0⟩)]
        (new (some (.method ⟨0⟩)) (some ⟨2⟩) ⟨true, true, true, true⟩)).found = true := by
  obtain ⟨course, -, stops⟩ := new_course overriding overriding_isSound (.method ⟨0⟩) (some ⟨2⟩)
    ⟨true, true, true, true⟩
  have hider : IsHider overriding (.method ⟨0⟩) (some (.method ⟨1⟩)) :=
    ⟨.method ⟨1⟩, rfl, rfl, by decide, by decide, by decide⟩
  have hit : IsHit overriding (.method ⟨0⟩) (some (.method ⟨0⟩)) := by decide
  have passes : ∀ c ∈ [none, some (.type ⟨1⟩)], ¬ StopsAt overriding (.method ⟨0⟩) c := by
    intro c member
    simp [StopsAt, IsHit, IsHider] at member ⊢
    rcases member with rfl | rfl <;> simp [BindingId.kind]
  obtain ⟨r, fed, -, noted⟩ := stops [none, some (.type ⟨1⟩)] (some (.method ⟨1⟩))
    [some (.method ⟨0⟩)] passes (.inr hider)
  refine ⟨overriding_isSound, hider, hit, ⟨r, fed, (noted hider).1, (noted hider).2⟩, ?_⟩
  exact (course _).1.found.2 ⟨_, by simp, hit⟩

end Search

end JavaScope
