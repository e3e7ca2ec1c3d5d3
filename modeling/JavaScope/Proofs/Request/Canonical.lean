import JavaScope.Proofs.Request.Search

/-!
# Searching for a use of a type

A search brings a candidate to its declaration before it compares it with the target, but it takes the
target as it is. So the search for a generic type with arguments passes over the generic type, and over
the other uses of it, at which the search for the declaration stops. The two searches fare alike
exactly if they take the first candidate alike that either of them stops at.
-/

namespace JavaScope

namespace Search

variable {s : Store} {t u : TypeId} {place : Option TypeId} {flags : Flags}
  {c : Option BindingId} {candidates rest : List (Option BindingId)}

/-! ## The fate of a search -/

/-- What feeding a new search answers, and whether the target is found then. -/
def fate (s : Store) (target : BindingId) (place : Option TypeId) (flags : Flags)
    (candidates : List (Option BindingId)) : Except Fault (Bool × Nat) × Bool :=
  let (answer, r) := outcome (Request.feed s candidates) (new (some target) place flags)
  (answer, r.found)

/-- The answer to a candidate that is a hit: access may be checked without end. -/
def answerToHit (s : Store) (place : Option TypeId) (flags : Flags) (c : Option BindingId) :
    Except Fault Bool :=
  match c with
  | some b => if flags.checkVisibility then (s.isVisible b place).map fun _ => true else .ok true
  | none => .ok true

/-- How a search for a type that is not found yet takes a candidate. -/
inductive Meeting (s : Store) (t : TypeId) (r : Search) (c : Option BindingId) :
    Except Fault Bool × Search → Prop
  | hit {answer : Except Fault Bool} {r' : Search} : IsHit s (.type t) c →
      answerToHit s r.parentType r.flags c = answer → r'.found = true → Meeting s t r c (answer, r')
  | hidden {r' : Search} : IsHider s (.type t) c → r'.found = false →
      Meeting s t r c (.ok true, r')
  | passed : ¬ StopsAt s (.type t) c → Meeting s t r c (.ok false, r)

/-- The signatures of types tell no more than their names. -/
theorem hides_type (s : Store) (u t : TypeId) :
    hides s (.type u) (.type t) =
      .ok (s.name (.type (s.declarationOfType u)) == s.name (.type t)) := by
  unfold hides
  by_cases named : (s.type (s.declarationOfType u)).name = (s.type t).name
  · simp [Store.declarationOf, Store.name, Store.signature, named, pure, Except.pure, bind,
      Except.bind]
  · simp [Store.declarationOf, Store.name, named, pure, Except.pure]

theorem isHit_type : IsHit s (.type t) (some (.type u)) ↔ u = t ∨ s.declarationOfType u = t := by
  simp [IsHit, BindingId.kind, Store.declarationOf]

theorem isHider_type : IsHider s (.type t) (some (.type u)) ↔
    ¬ (u = t ∨ s.declarationOfType u = t) ∧
      (s.type (s.declarationOfType u)).name = (s.type t).name := by
  simp [IsHider, BindingId.kind, Store.declarationOf, Store.name, Store.signature, pure,
    Except.pure]

/-- At a candidate of the target's kind that is no hit, the comparison tells whether the search
stops. -/
theorem stopsAt_iff_of_hides {b : BindingId} {hidden : Bool}
    (kind : b.kind = (BindingId.type t).kind)
    (miss : ¬ (b = .type t ∨ s.declarationOf b = .type t))
    (hides : hides s b (.type t) = .ok hidden) :
    hidden = true ↔ StopsAt s (.type t) (some b) := by
  obtain ⟨u, rfl⟩ : ∃ u, b = .type u := by
    cases b with
    | type u => exact ⟨u, rfl⟩
    | «variable» v => cases kind
    | method m => cases kind
  have miss : ¬ (u = t ∨ s.declarationOfType u = t) := by simpa [Store.declarationOf] using miss
  rw [hides_type] at hides
  cases hides
  rw [StopsAt, isHit_type, isHider_type, or_iff_right miss, and_iff_right miss]
  simp [Store.name]

/-- Every candidate is taken in one of these ways. -/
theorem accept_meeting {r : Search} (target : r.target = some (.type t)) (fresh : r.found = false)
    (c : Option BindingId) : Meeting s t r c (outcome (Request.accept s c) r) := by
  have takes := takes_accept (s := s) target fresh c
  generalize outcome (Request.accept s c) r = run at takes ⊢
  cases takes with
  | ignored other => exact .passed (not_stopsAt_of_kind other)
  | @hit b kind hit free => exact .hit ⟨b, rfl, kind, hit⟩ (by simp [answerToHit, free]) rfl
  | @checked b visible kind hit asked told =>
    exact .hit ⟨b, rfl, kind, hit⟩ (by simp [answerToHit, asked, told]; rfl) rfl
  | @unchecked b f kind hit asked fails =>
    exact .hit ⟨b, rfl, kind, hit⟩ (by simp [answerToHit, asked, fails]; rfl) rfl
  | @compared b hidden kind miss hides =>
    have stops := stopsAt_iff_of_hides kind miss hides
    cases hidden with
    | false => exact .passed fun h => absurd (stops.2 h) nofun
    | true =>
      rcases stops.1 rfl with ⟨b', ⟨⟩, -, hit⟩ | hider
      · exact absurd hit miss
      · refine .hidden hider ?_
        split <;> exact fresh
  | @incomparable b f kind miss fails =>
    cases b with
    | type u =>
      rw [hides_type] at fails
      cases fails
    | «variable» v => cases kind
    | method m => cases kind

/-! ## One candidate after the other -/

theorem answerToHit_ne_false (s : Store) (place : Option TypeId) (flags : Flags)
    (c : Option BindingId) : answerToHit s place flags c ≠ .ok false := by
  cases c with
  | none => exact nofun
  | some b =>
    rw [answerToHit]
    split
    · cases s.isVisible b place <;> exact nofun
    · exact nofun

theorem fate_of_isHit (hit : IsHit s (.type t) c) :
    fate s (.type t) place flags (c :: rest) =
      ((answerToHit s place flags c).map fun _ => (true, 1), true) := by
  have meeting := accept_meeting (s := s) (r := new (some (.type t)) place flags) rfl rfl c
  rw [fate, outcome_feed_cons]
  generalize outcome (Request.accept s c) (new (some (.type t)) place flags) = run at meeting
  cases meeting with
  | @hit answer r' hits answered found =>
    have answered : answerToHit s place flags c = answer := answered
    rw [answered]
    cases answer with
    | error f => exact congrArg (Prod.mk _) found
    | ok stopped =>
      cases stopped with
      | true => exact congrArg (Prod.mk _) found
      | false => exact absurd answered (answerToHit_ne_false s place flags c)
  | hidden hider fresh => exact absurd hit hider.not_isHit
  | passed passes => exact absurd (.inl hit) passes

theorem fate_of_isHider (hider : IsHider s (.type t) c) :
    fate s (.type t) place flags (c :: rest) = (.ok (true, 1), false) := by
  have meeting := accept_meeting (s := s) (r := new (some (.type t)) place flags) rfl rfl c
  rw [fate, outcome_feed_cons]
  generalize outcome (Request.accept s c) (new (some (.type t)) place flags) = run at meeting
  cases meeting with
  | hit hits found => exact absurd hits hider.not_isHit
  | hidden hider fresh => exact congrArg (Prod.mk _) fresh
  | passed passes => exact absurd (.inr hider) passes

theorem fate_of_passes (passes : ¬ StopsAt s (.type t) c) :
    fate s (.type t) place flags (c :: rest) =
      ((fate s (.type t) place flags rest).1.map fun (stopped, drawn) => (stopped, drawn + 1),
        (fate s (.type t) place flags rest).2) := by
  have meeting := accept_meeting (s := s) (r := new (some (.type t)) place flags) rfl rfl c
  rw [fate, outcome_feed_cons]
  generalize outcome (Request.accept s c) (new (some (.type t)) place flags) = run at meeting
  cases meeting with
  | hit hits found => exact absurd (.inl hits) passes
  | hidden hider fresh => exact absurd (.inr hider) passes
  | passed => rfl

/-- A search that was stopped has drawn a candidate. -/
theorem drawn_pos_of_fate {drawn : Nat}
    (stopped : (fate s (.type t) place flags candidates).1 = .ok (true, drawn)) : 0 < drawn := by
  induction candidates generalizing drawn with
  | nil => cases stopped
  | cons c rest ih =>
    by_cases stops : StopsAt s (.type t) c
    · rcases stops with hit | hider
      · rw [fate_of_isHit hit] at stopped
        cases answer : answerToHit s place flags c with
        | error f => simp [answer, Except.map] at stopped
        | ok _ =>
          simp only [answer, Except.map, Except.ok.injEq, Prod.mk.injEq, true_and] at stopped
          omega
      · rw [fate_of_isHider hider] at stopped
        cases stopped
        exact Nat.one_pos
    · rw [fate_of_passes stops] at stopped
      cases answer : (fate s (.type t) place flags rest).1 with
      | error f => simp [answer, Except.map] at stopped
      | ok told =>
        simp only [answer, Except.map, Except.ok.injEq, Prod.mk.injEq] at stopped
        omega

theorem fate_ne_of_passes (passes : ¬ StopsAt s (.type t) c) (found : Bool) :
    fate s (.type t) place flags (c :: rest) ≠ (.ok (true, 1), found) := by
  rw [fate_of_passes passes]
  intro same
  have told := congrArg Prod.fst same
  cases answer : (fate s (.type t) place flags rest).1 with
  | error f => simp [answer, Except.map] at told
  | ok drawn =>
    obtain ⟨stopped, drawn⟩ := drawn
    simp only [answer, Except.map, Except.ok.injEq, Prod.mk.injEq] at told
    obtain ⟨rfl, one⟩ := told
    have := drawn_pos_of_fate answer
    omega

section Sound

variable (sound : s.IsSound)

include sound

theorem isHit_iff_fate :
    IsHit s (.type t) c ↔ fate s (.type t) place flags (c :: rest) = (.ok (true, 1), true) := by
  constructor
  · intro hit
    rw [fate_of_isHit hit]
    obtain ⟨b, rfl, -⟩ := hit
    obtain ⟨visible, told⟩ := sound.answers_isVisible b place
    rw [answerToHit, told]
    split <;> rfl
  · intro same
    by_contra other
    by_cases hider : IsHider s (.type t) c
    · rw [fate_of_isHider hider] at same
      simp at same
    · exact fate_ne_of_passes (fun stops => stops.elim other hider) true same

theorem isHider_iff_fate :
    IsHider s (.type t) c ↔ fate s (.type t) place flags (c :: rest) = (.ok (true, 1), false) := by
  constructor
  · exact fate_of_isHider
  · intro same
    by_contra other
    by_cases hit : IsHit s (.type t) c
    · rw [(isHit_iff_fate sound).1 hit] at same
      simp at same
    · exact fate_ne_of_passes (fun stops => stops.elim hit other) false same

end Sound

/-! ## Two searches -/

/-- The searches for two types take a candidate alike. -/
structure TakeAlike (s : Store) (t u : TypeId) (c : Option BindingId) : Prop where
  hit : IsHit s (.type t) c ↔ IsHit s (.type u) c
  hider : IsHider s (.type t) c ↔ IsHider s (.type u) c

theorem TakeAlike.stopsAt_iff (alike : TakeAlike s t u c) :
    StopsAt s (.type t) c ↔ StopsAt s (.type u) c := by
  rw [StopsAt, StopsAt, alike.hit, alike.hider]

/-- The first candidate that the search for `t` or the one for `u` stops at, if there is one, is taken
alike by both. -/
def AlikeAtFirst (s : Store) (t u : TypeId) (candidates : List (Option BindingId)) : Prop :=
  ∀ before c rest, candidates = before ++ c :: rest →
    (∀ c' ∈ before, ¬ StopsAt s (.type t) c' ∧ ¬ StopsAt s (.type u) c') → TakeAlike s t u c

theorem alikeAtFirst_cons : AlikeAtFirst s t u (c :: rest) ↔
    TakeAlike s t u c ∧
      (¬ StopsAt s (.type t) c → ¬ StopsAt s (.type u) c → AlikeAtFirst s t u rest) := by
  constructor
  · intro alike
    refine ⟨alike [] c rest rfl (by simp), fun passes passes' before c' rest' split passed => ?_⟩
    refine alike (c :: before) c' rest' (by rw [split, List.cons_append]) ?_
    rintro c'' (_ | ⟨_, member⟩)
    · exact ⟨passes, passes'⟩
    · exact passed c'' member
  · rintro ⟨first, later⟩ before c' rest' split passed
    cases before with
    | nil =>
      cases split
      exact first
    | cons c'' before =>
      cases split
      obtain ⟨passes, passes'⟩ := passed c List.mem_cons_self
      exact later passes passes' before c' rest' rfl fun c'' member =>
        passed c'' (List.mem_cons_of_mem c member)

theorem fate_eq_of_alike (alike : AlikeAtFirst s t u candidates) :
    fate s (.type t) place flags candidates = fate s (.type u) place flags candidates := by
  induction candidates with
  | nil => rfl
  | cons c rest ih =>
    obtain ⟨first, later⟩ := alikeAtFirst_cons.1 alike
    by_cases stops : StopsAt s (.type t) c
    · rcases stops with hit | hider
      · rw [fate_of_isHit hit, fate_of_isHit (first.hit.1 hit)]
      · rw [fate_of_isHider hider, fate_of_isHider (first.hider.1 hider)]
    · have stops' : ¬ StopsAt s (.type u) c := fun stops' => stops (first.stopsAt_iff.2 stops')
      rw [fate_of_passes stops, fate_of_passes stops', ih (later stops stops')]

theorem alike_of_fate_eq (sound : s.IsSound)
    (same : fate s (.type t) place flags candidates = fate s (.type u) place flags candidates) :
    AlikeAtFirst s t u candidates := by
  induction candidates with
  | nil => exact fun before c rest split => absurd split (by simp)
  | cons c rest ih =>
    have told : ∀ answer, fate s (.type t) place flags (c :: rest) = answer ↔
        fate s (.type u) place flags (c :: rest) = answer := fun answer => by rw [same]
    refine alikeAtFirst_cons.2 ⟨⟨?_, ?_⟩, fun passes passes' => ih ?_⟩
    · exact (isHit_iff_fate sound).trans ((told _).trans (isHit_iff_fate sound).symm)
    · exact (isHider_iff_fate sound).trans ((told _).trans (isHider_iff_fate sound).symm)
    · rw [fate_of_passes passes, fate_of_passes passes'] at same
      obtain ⟨answers, found⟩ := Prod.mk.inj same
      refine Prod.ext ?_ found
      revert answers
      rcases (fate s (.type t) place flags rest).1 with f | ⟨stopped, drawn⟩ <;>
        rcases (fate s (.type u) place flags rest).1 with f' | ⟨stopped', drawn'⟩ <;>
          simp [Except.map]

/-- The search for a type fares as the one for its declaration if both take the first candidate alike
that either of them stops at, and, in a store whose chains of types end, only then. Of the types with
that declaration a use is the only one that the search for it finds. -/
theorem fate_use_eq_fate_declaration (s : Store) (t : TypeId) (place : Option TypeId) (flags : Flags)
    (candidates : List (Option BindingId)) :
    (AlikeAtFirst s t (s.declarationOfType t) candidates →
      fate s (.type t) place flags candidates =
        fate s (.type (s.declarationOfType t)) place flags candidates) ∧
    (s.IsSound → fate s (.type t) place flags candidates =
        fate s (.type (s.declarationOfType t)) place flags candidates →
      AlikeAtFirst s t (s.declarationOfType t) candidates) ∧
    ((∀ u, u ≠ t → s.declarationOfType u ≠ t) → s.declarationOfType t ≠ t →
      ∀ u, s.declarationOfType u = s.declarationOfType t →
        IsHit s (.type (s.declarationOfType t)) (some (.type u)) ∧
          (IsHit s (.type t) (some (.type u)) ↔ u = t)) := by
  refine ⟨fate_eq_of_alike, alike_of_fate_eq, fun proper use u same => ?_⟩
  refine ⟨isHit_type.2 (.inr same), isHit_type.trans ⟨fun hit => ?_, .inl⟩⟩
  rcases hit with here | uses
  · exact here
  · exact absurd (same.symm.trans uses) use

/-- A generic class, a use of it, and the argument of the use. -/
def boxes : Store where
  types := #[{ name := "Box", qualifiedName := "Box" },
    { name := "Box<String>", qualifiedName := "Box<String>", kind := .parameterized,
      genericType := some ⟨0⟩, typeArguments := [some ⟨2⟩] },
    { name := "String", qualifiedName := "java.lang.String" }]

theorem boxes_isSound : boxes.IsSound where
  inherits := Store.not_inherits_of_listed (by decide)
  lies := Store.not_liesIn_of_listed (by decide)
  erases := Store.not_erasesTo_of_listed (by decide)
  interfaces := boxes.forall_of_listed (by decide) (by simp +contextual)
  bounds := boxes.forall_of_listed (by decide) (by simp +contextual)
  elements := boxes.forall_of_listed (by decide) (by simp +contextual)
  parameters := by
    rintro ⟨_ | i⟩
    · decide
    · exact List.not_mem_nil

/-- The search for the use passes over the generic class, at which the search for the class stops. -/
theorem boxes_fare_differently :
    ¬ ∀ (s : Store) (t : TypeId) (place : Option TypeId) (flags : Flags)
      (candidates : List (Option BindingId)),
      fate s (.type t) place flags candidates =
        fate s (.type (s.declarationOfType t)) place flags candidates := by
  intro alike
  have same := alike boxes ⟨1⟩ none Flags.onlyTypes [some (.type ⟨2⟩), some (.type ⟨0⟩)]
  exact absurd same (by decide)

theorem boxes_alikeAtFirst :
    AlikeAtFirst boxes ⟨1⟩ ⟨0⟩ [some (.type ⟨2⟩), some (.type ⟨1⟩)] := by
  have argument : TakeAlike boxes ⟨1⟩ ⟨0⟩ (some (.type ⟨2⟩)) :=
    ⟨by decide, by rw [isHider_type, isHider_type]; decide⟩
  have use : TakeAlike boxes ⟨1⟩ ⟨0⟩ (some (.type ⟨1⟩)) :=
    ⟨by decide, by rw [isHider_type, isHider_type]; decide⟩
  exact alikeAtFirst_cons.2 ⟨argument, fun _ _ => alikeAtFirst_cons.2 ⟨use, fun _ _ before c rest split =>
    absurd split (by simp)⟩⟩

/-- Where the use comes first, both searches find it; the class itself is no hit for the search for its
use. -/
theorem fate_use_eq_fate_declaration_boxes :
    fate boxes (.type ⟨1⟩) none Flags.onlyTypes [some (.type ⟨2⟩), some (.type ⟨1⟩)] =
        fate boxes (.type ⟨0⟩) none Flags.onlyTypes [some (.type ⟨2⟩), some (.type ⟨1⟩)] ∧
      AlikeAtFirst boxes ⟨1⟩ ⟨0⟩ [none, some (.type ⟨1⟩), some (.type ⟨0⟩)] ∧
      ¬ IsHit boxes (.type ⟨1⟩) (some (.type ⟨0⟩)) := by
  obtain ⟨alike, -, -⟩ := fate_use_eq_fate_declaration boxes ⟨1⟩ none Flags.onlyTypes
    [some (.type ⟨2⟩), some (.type ⟨1⟩)]
  obtain ⟨-, exact, finds⟩ := fate_use_eq_fate_declaration boxes ⟨1⟩ none Flags.onlyTypes
    [none, some (.type ⟨1⟩), some (.type ⟨0⟩)]
  have proper : ∀ u, u ≠ ⟨1⟩ → boxes.declarationOfType u ≠ ⟨1⟩ := by
    refine boxes.forall_of_listed (by decide) fun u bare other => ?_
    rw [Store.declarationOfType, bare]
    exact other
  refine ⟨alike boxes_alikeAtFirst, exact boxes_isSound (by decide), ?_⟩
  rw [(finds proper (by decide) ⟨0⟩ rfl).2]
  decide

end Search

end JavaScope
