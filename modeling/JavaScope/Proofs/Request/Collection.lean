import JavaScope.Proofs.Request.Search

/-!
# What a collection hands out

A collection may be offered candidates and asked for its bindings in any order. Each time it hands out
the first binding of every signature that it was offered so far, if access is checked as far as it can
be accessed. Bindings that it has dropped for good do not change that: their signatures stay known.
-/

namespace JavaScope

/-! ## The first binding of every signature -/

/-- The bindings of a list that come first with their signature. A binding without a signature is left
out. -/
def Store.firsts (s : Store) : List BindingId → List BindingId
  | [] => []
  | b :: rest =>
    match s.signature b with
    | .ok x => b :: (s.firsts rest).filter fun d => s.signature d ≠ .ok x
    | .error _ => s.firsts rest

namespace Store

variable {s : Store} {b : BindingId} {history : List BindingId}

theorem pairwise_firsts (s : Store) (history : List BindingId) :
    (s.firsts history).Pairwise fun a b => s.signature a ≠ s.signature b := by
  induction history with
  | nil => exact .nil
  | cons a rest ih =>
    rw [firsts]
    split
    · next x signature =>
      refine .cons (fun d hd => ?_) (ih.filter _)
      rw [signature]
      exact Ne.symm (by simpa using (List.mem_filter.1 hd).2)
    · exact ih

theorem sublist_firsts (s : Store) (history : List BindingId) : (s.firsts history).Sublist history := by
  induction history with
  | nil => exact .slnil
  | cons a rest ih =>
    rw [firsts]
    split
    · exact (List.filter_sublist.trans ih).cons_cons a
    · exact ih.cons a

/-- One more binding comes first if it has a signature that none before it has. -/
theorem firsts_concat (s : Store) (history : List BindingId) {x : String}
    (signature : s.signature b = .ok x) :
    s.firsts (history ++ [b]) = if ∃ d ∈ history, s.signature d = .ok x then s.firsts history
      else s.firsts history ++ [b] := by
  induction history with
  | nil => simp [firsts, signature]
  | cons a rest ih =>
    rw [List.cons_append, firsts, firsts, ih]
    cases first : s.signature a with
    | error f => simp [first]
    | ok y =>
      dsimp only
      by_cases same : y = x
      -- the binding has the signature of the first one, and goes with all others of this signature
      · subst same
        have known : ∃ d ∈ a :: rest, s.signature d = .ok y := ⟨a, List.mem_cons_self, first⟩
        rw [if_pos known]
        congr 1
        split
        · rfl
        · simp [signature]
      · have other : ¬ Except.ok (ε := Fault) x = .ok y := by simpa using Ne.symm same
        by_cases known : ∃ d ∈ rest, s.signature d = .ok x
        · obtain ⟨d, hd, hx⟩ := known
          rw [if_pos ⟨d, hd, hx⟩, if_pos ⟨d, List.mem_cons_of_mem a hd, hx⟩]
        · have unknown : ¬ ∃ d ∈ a :: rest, s.signature d = .ok x := by
            simpa [first, same] using known
          rw [if_neg known, if_neg unknown]
          simp [signature, other]

theorem firsts_concat_of_error (s : Store) (history : List BindingId) {f : Fault}
    (signature : s.signature b = .error f) : s.firsts (history ++ [b]) = s.firsts history := by
  induction history with
  | nil => simp [firsts, signature]
  | cons a rest ih => rw [List.cons_append, firsts, firsts, ih]

end Store

/-! ## Bindings that can be accessed -/

/-- Why there is no answer. -/
def faultOf {α : Type} : Except Fault α → Option Fault
  | .ok _ => none
  | .error f => some f

@[simp] theorem faultOf_ok {α : Type} (a : α) : faultOf (.ok a) = none := rfl

@[simp] theorem faultOf_error {α : Type} (f : Fault) : faultOf (.error f : Except Fault α) = some f :=
  rfl

/-- The bindings of a list that can be accessed. Where this cannot be told of some bindings, the fault
of the last of them. -/
def accessible (visible : BindingId → Except Fault Bool) (bindings : List BindingId) :
    Except Fault (List BindingId) :=
  match bindings.reverse.findSome? fun b => faultOf (visible b) with
  | some f => .error f
  | none => .ok (bindings.filter fun b => visible b = .ok true)

section Accessible

variable {visible : BindingId → Except Fault Bool} {b : BindingId}

/-- A binding that cannot be accessed counts for nothing. -/
theorem accessible_without (h : visible b = .ok false) (before after : List BindingId) :
    accessible visible (before ++ b :: after) = accessible visible (before ++ after) := by
  simp [accessible, List.findSome?_append, h]

/-- What can be accessed of a longer list depends on what can be accessed of the list. -/
theorem accessible_concat_congr {bs bs' : List BindingId}
    (same : accessible visible bs = accessible visible bs') (b : BindingId) :
    accessible visible (bs ++ [b]) = accessible visible (bs' ++ [b]) := by
  have parts : ∀ xs : List BindingId, accessible visible (xs ++ [b]) =
      match visible b with
      | .error f => .error f
      | .ok v => (accessible visible xs).map fun ds => if v then ds ++ [b] else ds := by
    intro xs
    unfold accessible
    rw [List.reverse_append, List.reverse_singleton, List.singleton_append, List.findSome?_cons]
    cases hv : visible b with
    | error f => rfl
    | ok v =>
      rw [faultOf_ok]
      dsimp only
      cases xs.reverse.findSome? fun b => faultOf (visible b) with
      | some f => rfl
      | none => cases v <;> simp [hv, Except.map]
  rw [parts, parts, same]

theorem findSome?_fault_of_visible {kept : List BindingId} (h : ∀ b ∈ kept, visible b = .ok true) :
    kept.reverse.findSome? (fun b => faultOf (visible b)) = none := by
  refine List.findSome?_eq_none_iff.2 fun b hb => ?_
  rw [h b (List.mem_reverse.1 hb), faultOf_ok]

variable (visible) in
/-- A sweep that ends hands out what can be accessed. -/
theorem sweep_answer {kept : List BindingId} (h : ∀ b ∈ kept, visible b = .ok true)
    (rest : List BindingId) :
    (match Collection.sweep visible kept rest with
      | (left, none) => .ok left
      | (_, some f) => .error f) = accessible visible (rest.reverse ++ kept) := by
  induction rest generalizing kept with
  | nil =>
    rw [Collection.sweep, List.reverse_nil, List.nil_append, accessible,
      findSome?_fault_of_visible h]
    exact congrArg Except.ok (List.filter_eq_self.2 fun b hb => by simpa using h b hb).symm
  | cons b rest ih =>
    rw [Collection.sweep, List.reverse_cons, List.append_assoc, List.singleton_append]
    cases hv : visible b with
    | error f =>
      rw [accessible, List.reverse_append, List.reverse_cons, List.append_assoc,
        List.findSome?_append, findSome?_fault_of_visible h]
      simp [hv]
    | ok v =>
      cases v with
      | true => exact ih fun d hd => (List.mem_cons.1 hd).elim (fun same => same ▸ hv) (h d)
      | false =>
        rw [accessible_without hv]
        exact ih h

variable (visible) in
/-- A sweep leaves some of the bindings, of which the same can be accessed as of all. -/
theorem sweep_left (kept rest : List BindingId) :
    (Collection.sweep visible kept rest).1.Sublist (rest.reverse ++ kept) ∧
      accessible visible (Collection.sweep visible kept rest).1 =
        accessible visible (rest.reverse ++ kept) := by
  induction rest generalizing kept with
  | nil => exact ⟨.refl _, rfl⟩
  | cons b rest ih =>
    rw [Collection.sweep, List.reverse_cons, List.append_assoc, List.singleton_append]
    cases hv : visible b with
    | error f => exact ⟨.refl _, rfl⟩
    | ok v =>
      cases v with
      | true => exact ih (b :: kept)
      | false =>
        obtain ⟨fewer, same⟩ := ih kept
        rw [accessible_without hv]
        exact ⟨fewer.trans ((List.sublist_cons_self b kept).append_left rest.reverse), same⟩

end Accessible

namespace Collection

/-! ## Calls -/

/-- A call on a collection. -/
inductive Call where
  /-- A candidate is offered. -/
  | accept (candidate : Option BindingId)
  /-- The collected bindings are asked for. -/
  | requested

/-- What a call answers. -/
inductive Answer where
  | stop (stopped : Bool)
  | bindings (bs : List BindingId)

/-- The binding that a call offers. -/
def Call.candidate? : Call → Option BindingId
  | accept candidate => candidate
  | requested => none

/-- A call. -/
def Call.perform (s : Store) : Call → RequestM Collection Answer
  | accept candidate => return .stop (← Request.accept s candidate)
  | requested => return .bindings (← Collection.requested s)

/-- A collection after some calls. A call that fails is not the last one. -/
def after (s : Store) (calls : List Call) (c : Collection) : Collection :=
  calls.foldl (fun c call => (outcome (call.perform s) c).2) c

theorem after_cons (s : Store) (call : Call) (calls : List Call) (c : Collection) :
    after s (call :: calls) c = after s calls (outcome (call.perform s) c).2 := rfl

/-- What has to be handed out of some bindings: where access is checked, those that can be
accessed. -/
def due (s : Store) (parentType : Option TypeId) (flags : Flags) (bs : List BindingId) :
    Except Fault (List BindingId) :=
  if flags.checkVisibility then accessible (fun b => s.isVisible b parentType) bs else .ok bs

/-- What a call has to answer after the bindings of a history were offered. An offer only fails if the
binding has no signature. -/
def Call.answer (s : Store) (parentType : Option TypeId) (flags : Flags)
    (history : List BindingId) : Call → Except Fault Answer
  | accept none => .ok (.stop false)
  | accept (some b) => (s.signature b).map fun _ => .stop false
  | requested => (due s parentType flags (s.firsts history)).map .bindings

/-- What is asked for is what is due of the bindings in the collection, and no less is due of what is
left there. -/
theorem requested_spec (s : Store) (c : Collection) :
    (outcome (requested s) c).1 = due s c.parentType c.flags c.bindings ∧
      ∃ left : List BindingId, (outcome (requested s) c).2 = { c with bindings := left } ∧
        left.Sublist c.bindings ∧
        due s c.parentType c.flags left = due s c.parentType c.flags c.bindings := by
  have get : outcome get c = (.ok c, c) := rfl
  rw [requested, outcome_bind_of_ok get]
  simp only [due]
  by_cases checked : c.flags.checkVisibility = true
  · simp only [checked, if_true]
    have answer := sweep_answer (fun b => s.isVisible b c.parentType) (List.forall_mem_nil _)
      c.bindings.reverse
    have remains := sweep_left (fun b => s.isVisible b c.parentType) [] c.bindings.reverse
    rw [List.reverse_reverse, List.append_nil] at answer remains
    revert answer remains
    rcases sweep (fun b => s.isVisible b c.parentType) [] c.bindings.reverse with ⟨left, fault⟩
    intro answer remains
    rw [outcome_bind_of_ok (outcome_set _ _), ← answer]
    exact ⟨by cases fault <;> rfl, left, by cases fault <;> rfl, remains.1, answer ▸ remains.2⟩
  · simp only [checked]
    exact ⟨rfl, c.bindings, rfl, .refl _, rfl⟩

/-! ## Any order of calls -/

/-- A collection knows all signatures that it was offered, and has enough bindings of those that came
first with theirs to hand out what is due. -/
structure Tracks (s : Store) (parentType : Option TypeId) (flags : Flags) (history : List BindingId)
    (c : Collection) : Prop where
  place : c.parentType = parentType
  asked : c.flags = flags
  known : ∀ x, x ∈ c.signatures ↔ ∃ b ∈ history, s.signature b = .ok x
  taken : c.bindings.Sublist (s.firsts history)
  owes : due s parentType flags c.bindings = due s parentType flags (s.firsts history)

theorem due_concat_congr {s : Store} {parentType : Option TypeId} {flags : Flags}
    {bs bs' : List BindingId} (same : due s parentType flags bs = due s parentType flags bs')
    (b : BindingId) : due s parentType flags (bs ++ [b]) = due s parentType flags (bs' ++ [b]) := by
  unfold due at same ⊢
  split
  · next checked =>
    rw [if_pos checked, if_pos checked] at same
    exact accessible_concat_congr same b
  · next checked =>
    rw [if_neg checked, if_neg checked, Except.ok.injEq] at same
    rw [same]

section Calls

variable {s : Store} {parentType : Option TypeId} {flags : Flags} {history : List BindingId}
  {c : Collection}

theorem tracks_new (s : Store) (parentType : Option TypeId) (flags : Flags) :
    Tracks s parentType flags [] (new parentType flags) :=
  ⟨rfl, rfl, by simp [new], .refl _, rfl⟩

namespace Tracks

/-- A binding that is offered is never a reason to stop, and is tracked. -/
theorem accept (tracks : Tracks s parentType flags history c) (b : BindingId) :
    (outcome (Request.accept s (some b)) c).1 = (s.signature b).map (fun _ => false) ∧
      Tracks s parentType flags (history ++ [b]) (outcome (Request.accept s (some b)) c).2 := by
  rw [outcome_accept_collection]
  cases signature : s.signature b with
  | error f =>
    have firsts := s.firsts_concat_of_error history signature
    refine ⟨rfl, tracks.place, tracks.asked, fun x => ?_, ?_, ?_⟩
    · simp [tracks.known, signature, or_and_right, exists_or]
    · rw [firsts]
      exact tracks.taken
    · rw [firsts]
      exact tracks.owes
  | ok x =>
    have firsts := s.firsts_concat history signature
    have knows : x ∈ c.signatures ↔ ∃ d ∈ history, s.signature d = .ok x := tracks.known x
    have signs : ∀ y, (∃ d ∈ history ++ [b], s.signature d = .ok y) ↔ y = x ∨ y ∈ c.signatures := by
      intro y
      simp [tracks.known, signature, or_and_right, exists_or, or_comm, eq_comm]
    refine ⟨rfl, ?_⟩
    dsimp only
    by_cases known : x ∈ c.signatures
    · rw [if_pos (knows.1 known)] at firsts
      rw [if_pos (by simpa using known)]
      refine ⟨tracks.place, tracks.asked, fun y => ?_, ?_, ?_⟩
      · rw [signs]
        exact ⟨.inr, fun h => h.elim (fun same => same ▸ known) id⟩
      · rw [firsts]
        exact tracks.taken
      · rw [firsts]
        exact tracks.owes
    · rw [if_neg fun h => known (knows.2 h)] at firsts
      rw [if_neg (by simpa using known)]
      refine ⟨tracks.place, tracks.asked, fun y => ?_, ?_, ?_⟩
      · rw [signs]
        exact List.mem_cons
      · rw [firsts]
        exact tracks.taken.append_right [b]
      · rw [firsts]
        exact due_concat_congr tracks.owes b

/-- What is asked for is what is due, and the collection goes on tracking what it was offered. -/
theorem requested (tracks : Tracks s parentType flags history c) :
    (outcome (requested s) c).1 = due s parentType flags (s.firsts history) ∧
      Tracks s parentType flags history (outcome (Collection.requested s) c).2 := by
  obtain ⟨answer, left, state, fewer, same⟩ := requested_spec s c
  rw [tracks.place, tracks.asked] at answer same
  rw [state]
  exact ⟨answer.trans tracks.owes, tracks.place, tracks.asked, tracks.known,
    fewer.trans tracks.taken, same.trans tracks.owes⟩

/-- A call answers what is due, and is tracked. -/
theorem perform (tracks : Tracks s parentType flags history c) (call : Call) :
    (outcome (call.perform s) c).1 = call.answer s parentType flags history ∧
      Tracks s parentType flags (history ++ call.candidate?.toList)
        (outcome (call.perform s) c).2 := by
  have mapped : ∀ {α : Type} (action : RequestM Collection α) (f : α → Answer),
      outcome (action >>= fun x => pure (f x)) c =
        ((outcome action c).1.map f, (outcome action c).2) := by
    intro α action f
    rw [outcome_bind]
    rcases outcome action c with ⟨_ | _, _⟩ <;> rfl
  cases call with
  | accept candidate =>
    rw [Call.perform, mapped]
    cases candidate with
    | none =>
      refine ⟨rfl, ?_⟩
      rw [Call.candidate?, Option.toList_none, List.append_nil]
      exact tracks
    | some b =>
      obtain ⟨answer, next⟩ := tracks.accept b
      refine ⟨?_, next⟩
      rw [answer, Call.answer]
      cases s.signature b <;> rfl
  | requested =>
    obtain ⟨answer, next⟩ := tracks.requested
    rw [Call.perform, mapped, answer, Call.candidate?, Option.toList_none, List.append_nil]
    exact ⟨rfl, next⟩

/-- All calls so far are tracked. -/
theorem after (tracks : Tracks s parentType flags history c) (calls : List Call) :
    Tracks s parentType flags (history ++ calls.filterMap Call.candidate?)
      (Collection.after s calls c) := by
  induction calls generalizing history c with
  | nil =>
    rw [List.filterMap_nil, List.append_nil]
    exact tracks
  | cons call rest ih =>
    have next := ih (tracks.perform call).2
    rw [List.append_assoc] at next
    rw [after_cons, List.filterMap_cons]
    cases offered : call.candidate? with
    | none => simpa [offered] using next
    | some b => simpa [offered] using next

end Tracks

end Calls

/-- In a sound store a call always answers. -/
theorem Call.answers_answer {s : Store} (sound : s.IsSound) (parentType : Option TypeId)
    (flags : Flags) (history : List BindingId) (call : Call) :
    Answers (call.answer s parentType flags history) := by
  cases call with
  | accept candidate =>
    cases candidate with
    | none => exact .ok _
    | some b =>
      obtain ⟨x, signature⟩ := sound.answers_signature b
      rw [answer, signature]
      exact .ok _
  | requested =>
    have told : ∀ bs, Answers (due s parentType flags bs) := by
      intro bs
      have none : (bs.reverse.findSome? fun b => faultOf (s.isVisible b parentType)) = none := by
        refine List.findSome?_eq_none_iff.2 fun b _ => ?_
        obtain ⟨visible, told⟩ := sound.answers_isVisible b parentType
        rw [told, faultOf_ok]
      refine .ite (fun _ => ?_) fun _ => .ok bs
      rw [accessible, none]
      exact .ok _
    obtain ⟨ds, hds⟩ := told (s.firsts history)
    rw [answer, hds]
    exact .ok _

/-- Whatever the calls on a collection so far, no two of its bindings have the same signature, and the
next call answers what is due: an offer is never a reason to stop, and what is handed out are the
first bindings of their signature among all that were offered, where access is checked those of them
that can be accessed. In a sound store no call fails. -/
theorem perform_after (s : Store) (parentType : Option TypeId) (flags : Flags) (calls : List Call)
    (call : Call) :
    let c := after s calls (new parentType flags)
    (c.bindings.Pairwise fun a b => s.signature a ≠ s.signature b) ∧
      (outcome (call.perform s) c).1 =
        call.answer s parentType flags (calls.filterMap Call.candidate?) ∧
      (s.IsSound → Answers (outcome (call.perform s) c).1) := by
  have tracks := (tracks_new s parentType flags).after calls
  rw [List.nil_append] at tracks
  have answer := (tracks.perform call).1
  refine ⟨(s.pairwise_firsts _).sublist tracks.taken, answer, fun sound => ?_⟩
  rw [answer]
  exact Call.answers_answer sound parentType flags _ call

/-- An override that was dropped because it cannot be accessed still keeps out the method that it
overrides. -/
theorem perform_after_overriding :
    Search.overriding.IsSound ∧
      (outcome (Call.requested.perform Search.overriding) (after Search.overriding
        [.accept (some (.method ⟨1⟩)), .requested, .accept none, .accept (some (.method ⟨0⟩))]
        (new none ⟨true, true, true, true⟩))).1 = .ok (.bindings []) := by
  have course := perform_after Search.overriding none ⟨true, true, true, true⟩
    [.accept (some (.method ⟨1⟩)), .requested, .accept none, .accept (some (.method ⟨0⟩))] .requested
  exact ⟨Search.overriding_isSound, course.2.1.trans rfl⟩

end Collection

end JavaScope
