import JavaScope.Proofs.Binding.Acyclic
import JavaScope.Proofs.Environment.Agreement

/-!
# What signatures tell apart

A signature is one text: the letter of the kind, the name, and for a method the erasures of its
parameter types joined by commas, between parentheses. The text determines what it is made of as
long as the separators do not occur in the parts and no erasure is empty, so signatures never merge
different declarations, not even those of different stores.
-/

namespace JavaScope

theorem bind_eq_ok {α β : Type} {x : Except Fault α} {f : α → Except Fault β} {b : β} :
    x >>= f = .ok b ↔ ∃ a, x = .ok a ∧ f a = .ok b := by
  cases x with
  | error f => exact ⟨nofun, fun ⟨_, absurd, _⟩ => nomatch absurd⟩
  | ok a => exact ⟨fun h => ⟨a, rfl, h⟩, fun ⟨_, same, h⟩ => Except.ok.inj same ▸ h⟩

/-! ## Joined texts -/

/-- A text that can be read back from a list joined by commas. -/
def IsListable (text : String) : Prop :=
  text ≠ "" ∧ ',' ∉ text.toList

instance (text : String) : Decidable (IsListable text) :=
  inferInstanceAs (Decidable (_ ∧ _))

/-- The texts that a text joins by commas; the empty text joins none. -/
def listed (text : String) : List String :=
  if text = "" then [] else (text.toList.splitOn ',').map String.ofList

theorem listed_intercalate {texts : List String} (plain : ∀ text ∈ texts, IsListable text) :
    listed (",".intercalate texts) = texts := by
  cases texts with
  | nil => rfl
  | cons text rest =>
    have split : ((",".intercalate (text :: rest)).toList.splitOn ',') =
        (text :: rest).map String.toList := by
      rw [String.toList_intercalate]
      refine List.splitOn_intercalate ',' (fun part member => ?_) (List.cons_ne_nil _ _)
      obtain ⟨each, here, rfl⟩ := List.mem_map.1 member
      exact (plain each here).2
    have nonempty : ",".intercalate (text :: rest) ≠ "" := by
      intro empty
      rw [empty] at split
      -- the empty text splits into one empty part, which the first text is not
      have first : [] = text.toList := (List.cons.inj split).1
      exact (plain text List.mem_cons_self).1 (String.toList_eq_nil_iff.1 first.symm)
    rw [listed, if_neg nonempty, split, List.map_map]
    exact List.map_id'' (fun each => String.ofList_toList) _

theorem intercalate_comma_inj {texts texts' : List String}
    (plain : ∀ text ∈ texts, IsListable text) (plain' : ∀ text ∈ texts', IsListable text) :
    ",".intercalate texts = ",".intercalate texts' ↔ texts = texts' := by
  refine ⟨fun same => ?_, congrArg _⟩
  rw [← listed_intercalate plain, same, listed_intercalate plain']

/-! ## Brackets -/

theorem toList_brackets (dimensions : Int) :
    (brackets dimensions).toList = (List.replicate dimensions.toNat "[]").flatMap String.toList :=
  String.toList_join

/-- The brackets tell dimensions apart. -/
theorem brackets_inj {j k : Int} (hj : 0 ≤ j) (hk : 0 ≤ k) (same : brackets j = brackets k) :
    j = k := by
  have length : ∀ i, (brackets i).toList.length = i.toNat * 2 := by
    intro i
    rw [toList_brackets, List.length_flatMap]
    simp
  have := congrArg (fun text => text.toList.length) same
  simp only [length] at this
  omega

namespace Store

variable {s s' : Store}

/-! ## Erasures of parameters -/

/-- The erasures of a method's parameter types, in order. -/
def parameterErasures (s : Store) (m : MethodId) : Except Fault (List String) :=
  (s.method m).parameterTypes.mapM fun each => do s.erasure (← needed each)

theorem signatureOfMethod_eq (s : Store) (m : MethodId) : s.signatureOfMethod m = (do
    return "M" ++ (s.method m).name ++ "(" ++ ",".intercalate (← s.parameterErasures m) ++ ")") :=
  rfl

/-! ## Signatures -/

/-- A method whose name and whose parameters' erasures can be read back from its signature. -/
structure Spells (s : Store) (m : MethodId) (erasures : List String) : Prop where
  name : '(' ∉ (s.method m).name.toList
  erased : s.parameterErasures m = .ok erasures
  listable : ∀ erasure ∈ erasures, IsListable erasure

theorem signature_method_of_erased {m : MethodId} {erasures : List String}
    (erased : s.parameterErasures m = .ok erasures) :
    s.signature (.method m) =
      .ok ("M" ++ (s.method m).name ++ "(" ++ ",".intercalate erasures ++ ")") := by
  rw [signature, signatureOfMethod_eq, erased]
  rfl

theorem answers_signature_of_ne_method {b : BindingId} (other : b.kind ≠ .method) :
    Answers (s.signature b) := by
  cases b with
  | type t => exact ⟨_, rfl⟩
  | «variable» v => exact ⟨_, rfl⟩
  | method m => exact absurd rfl other

theorem kind_eq_of_signature {b d : BindingId} {text : String} (first : s.signature b = .ok text)
    (second : s'.signature d = .ok text) : b.kind = d.kind := by
  obtain ⟨_, spelled, -⟩ := signature_eq_ok first
  obtain ⟨_, spelled', -⟩ := signature_eq_ok second
  rw [spelled, List.cons.injEq] at spelled'
  generalize b.kind = kind, d.kind = kind' at spelled'
  revert spelled'
  cases kind <;> cases kind' <;> simp [kindLetter]

theorem signature_ne_of_kind_ne {b d : BindingId} (kinds : b.kind ≠ d.kind) :
    s.signature b ≠ s'.signature d := by
  intro same
  -- one of the two is no method, so there is a text, and both are it
  obtain ⟨text, first⟩ : ∃ text, s.signature b = .ok text := by
    by_cases method : b.kind = .method
    · rw [same]
      exact answers_signature_of_ne_method fun method' => kinds (method.trans method'.symm)
    · exact answers_signature_of_ne_method method
  exact kinds (kind_eq_of_signature first (same ▸ first))

theorem signature_eq_iff_name {b d : BindingId} (kinds : b.kind = d.kind)
    (other : b.kind ≠ .method) : s.signature b = s'.signature d ↔ s.name b = s'.name d := by
  cases b with
  | type t =>
    cases d with
    | type u => simp [signature, Store.name, pure, Except.pure]
    | «variable» v => cases kinds
    | method m => cases kinds
  | «variable» v =>
    cases d with
    | «variable» w => simp [signature, Store.name, pure, Except.pure]
    | type u => cases kinds
    | method m => cases kinds
  | method m => exact absurd rfl other

theorem Spells.signature_eq_iff {m m' : MethodId} {erasures erasures' : List String}
    (h : s.Spells m erasures) (h' : s'.Spells m' erasures') :
    s.signature (.method m) = s'.signature (.method m') ↔
      (s.method m).name = (s'.method m').name ∧ erasures = erasures' := by
  rw [signature_method_of_erased h.erased, signature_method_of_erased h'.erased, Except.ok.injEq]
  constructor
  · intro same
    have texts : (s.method m).name.toList ++ '(' :: ((",".intercalate erasures).toList ++ [')']) =
        (s'.method m').name.toList ++ '(' :: ((",".intercalate erasures').toList ++ [')']) := by
      simpa using congrArg String.toList same
    have names : (s.method m).name.toList = (s'.method m').name.toList := by
      rw [← takeWhile_append_paren h.name, texts, takeWhile_append_paren h'.name]
    rw [names] at texts
    have joined : (",".intercalate erasures).toList = (",".intercalate erasures').toList := by
      simpa using texts
    exact ⟨String.toList_injective names,
      (intercalate_comma_inj h.listable h'.listable).1 (String.toList_injective joined)⟩
  · rintro ⟨names, rfl⟩
    rw [names]

/-- Signatures never merge bindings of different kinds, types or variables of different names, or
methods that differ in their names or in the erasures of their parameters. -/
theorem signature_tells_apart (s s' : Store) :
    (∀ b d : BindingId, b.kind ≠ d.kind → s.signature b ≠ s'.signature d) ∧
    (∀ b d : BindingId, b.kind = d.kind → b.kind ≠ .method →
      Answers (s.signature b) ∧ (s.signature b = s'.signature d ↔ s.name b = s'.name d)) ∧
    ∀ (m m' : MethodId) (erasures erasures' : List String),
      s.Spells m erasures → s'.Spells m' erasures' →
        Answers (s.signature (.method m)) ∧
        (s.signature (.method m) = s'.signature (.method m') ↔
          s.name (.method m) = s'.name (.method m') ∧ erasures = erasures') := by
  refine ⟨fun b d => signature_ne_of_kind_ne, fun b d kinds other => ?_,
    fun m m' erasures erasures' h h' => ?_⟩
  · exact ⟨answers_signature_of_ne_method other, signature_eq_iff_name kinds other⟩
  · exact ⟨⟨_, signature_method_of_erased h.erased⟩, h.signature_eq_iff h'⟩

/-- Methods of one name that take nothing, a list of texts, a variable that is bounded by such a list,
two dimensions of the variable, a wildcard, and a text and a list; and a variable and a type of the
same name. -/
def overloads : Store where
  types := #[
    { name := "List", qualifiedName := "java.util.List", kind := .interfaceType },
    { name := "String", qualifiedName := "java.lang.String" },
    { name := "List<String>", kind := .parameterized, genericType := some ⟨0⟩,
      typeArguments := [some ⟨1⟩] },
    { name := "T", kind := .typeParameter, bounds := [some ⟨2⟩] },
    { name := "T[][]", kind := .array, elementType := some ⟨3⟩, dimensions := 2 },
    { name := "?", kind := .wildcard },
    { name := "put" }]
  vars := #[{ name := "put" }]
  methods := #[
    { name := "put" },
    { name := "put", parameterTypes := [some ⟨2⟩] },
    { name := "put", parameterTypes := [some ⟨3⟩] },
    { name := "put", parameterTypes := [some ⟨4⟩] },
    { name := "put", parameterTypes := [some ⟨5⟩] },
    { name := "put", parameterTypes := [some ⟨1⟩, some ⟨2⟩] }]

/-- The overloads, each with its erasures. -/
def overloadErasures : List (MethodId × List String) := [
  (⟨0⟩, []), (⟨1⟩, ["java.util.List"]), (⟨2⟩, ["java.util.List"]), (⟨3⟩, ["java.util.List[][]"]),
  (⟨4⟩, ["java.lang.Object"]), (⟨5⟩, ["java.lang.String", "java.util.List"])]

theorem spells_overloads : ∀ each ∈ overloadErasures, overloads.Spells each.1 each.2 := by
  intro each member
  have spelled : ∀ each ∈ overloadErasures, '(' ∉ (overloads.method each.1).name.toList ∧
      overloads.parameterErasures each.1 = .ok each.2 ∧
      ∀ erasure ∈ each.2, IsListable erasure := by
    decide
  exact ⟨(spelled each member).1, (spelled each member).2.1, (spelled each member).2.2⟩

/-- Only the list of texts and the variable that it bounds are erased to the same parameters; the type
and the variable have signatures of their own. -/
theorem signature_tells_apart_overloads :
    (∀ each ∈ overloadErasures, ∀ other ∈ overloadErasures,
      (overloads.signature (.method each.1) = overloads.signature (.method other.1) ↔
        each.2 = other.2)) ∧
    overloads.signature (.type ⟨6⟩) ≠ overloads.signature (.variable ⟨0⟩) ∧
    overloads.signature (.type ⟨3⟩) ≠ overloads.signature (.type ⟨6⟩) := by
  obtain ⟨kinds, names, methods⟩ := signature_tells_apart overloads overloads
  refine ⟨fun each member other member' => ?_, kinds _ _ (by decide), fun same => ?_⟩
  · have same := (methods _ _ _ _ (spells_overloads each member) (spells_overloads other member')).2
    have put : ∀ each ∈ overloadErasures, (overloads.method each.1).name = "put" := by decide
    rw [same, Store.name, Store.name, put each member, put other member']
    simp
  · have name := (names (.type ⟨3⟩) (.type ⟨6⟩) rfl (by decide)).2.1 same
    exact absurd name (by decide)

end Store

end JavaScope
