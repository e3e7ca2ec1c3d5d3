import JavaScope.Proofs.Range.Relation
import JavaScope.Proofs.Unit.Attachment
import JavaScope.Source.Words

/-!
# Whole words are found

A search goes on behind the word it has found, so it could miss a word that starts inside of it. In a
word that is made of the characters of names this cannot be: the character before such a start is
part of the found word, and a word does not stand by itself behind a character of a name.
-/

namespace JavaScope

/-! ## Words that stand by themselves -/

/-- The word is read at an offset of the text, and neither the character before it nor the one after
it can be part of a name. -/
structure StandsAt (text word : List Char) (start : Nat) : Prop where
  reads : word <+: text.drop start
  before : ∀ i c, i + 1 = start → text[i]? = some c → Text.isNamePart c = false
  after : ∀ c, text[start + word.length]? = some c → Text.isNamePart c = false

variable {text word pre rest : List Char} {i j : Nat}

theorem forall_last_iff (rest : List Char) {p : Char → Bool} :
    (∀ i c, i + 1 = pre.length → (pre ++ rest)[i]? = some c → p c = false) ↔
      pre.getLast?.any p = false := by
  rw [Option.any_eq_false, List.getLast?_eq_getElem?]
  constructor
  · intro h c last
    have inside := List.getElem?_eq_some_iff.1 last |>.1
    refine h (pre.length - 1) c (by omega) ?_
    rw [List.getElem?_append_left inside, last]
  · intro h i c next here
    have last : pre.length - 1 = i := by omega
    refine h c ?_
    rw [last, ← here, List.getElem?_append_left (by omega)]

/-- The test that the search makes behind a part of the text. -/
theorem standsAt_append_iff :
    StandsAt (pre ++ rest) word pre.length ↔
      (!pre.getLast?.any Text.isNamePart && startsWord word rest) = true := by
  have reads : word <+: (pre ++ rest).drop pre.length ↔ word.isPrefixOf rest = true := by
    rw [List.drop_left, List.isPrefixOf_iff_prefix]
  have after : (∀ c, (pre ++ rest)[pre.length + word.length]? = some c →
      Text.isNamePart c = false) ↔ (rest.drop word.length).head?.any Text.isNamePart = false := by
    rw [Option.any_eq_false, List.getElem?_append_right (Nat.le_add_right _ _), List.head?_drop,
      Nat.add_sub_cancel_left]
  rw [startsWord, Bool.and_eq_true, Bool.and_eq_true, Bool.not_eq_true', Bool.not_eq_true', ← reads,
    ← after, ← forall_last_iff rest]
  exact ⟨fun h => ⟨h.before, h.reads, h.after⟩, fun ⟨before, reads, after⟩ => ⟨reads, before, after⟩⟩

namespace StandsAt

theorem getElem?_eq (h : StandsAt text word i) (inside : j < word.length) :
    text[i + j]? = some word[j] := by
  rw [← List.getElem?_drop]
  exact List.prefix_iff_getElem?.1 h.reads j inside

theorem add_length_le (h : StandsAt text word i) (nonempty : word ≠ []) :
    i + word.length ≤ text.length := by
  have length := h.reads.length_le
  rw [List.length_drop] at length
  have := List.length_pos_of_ne_nil nonempty
  omega

/-- No word stands at the end of a text. -/
theorem lt_length (h : StandsAt text word i) (nonempty : word ≠ []) : i < text.length := by
  have ends := h.add_length_le nonempty
  have := List.length_pos_of_ne_nil nonempty
  omega

/-- A name that stands by itself ends before the next place where it stands by itself. -/
theorem add_length_lt (h : StandsAt text word i) (h' : StandsAt text word j)
    (plain : ∀ c ∈ word, Text.isNamePart c = true) (lt : i < j) : i + word.length < j := by
  by_contra overlap
  obtain ⟨k, rfl⟩ : ∃ k, j = i + k + 1 := ⟨j - i - 1, by omega⟩
  have inside : k < word.length := by omega
  have other := h'.before (i + k) word[k] rfl (h.getElem?_eq inside)
  rw [plain _ (List.getElem_mem inside)] at other
  cases other

theorem take_drop_eq (h : StandsAt text word i) :
    (text.take (i + word.length)).drop i = word := by
  rw [List.drop_take, Nat.add_sub_cancel_left]
  exact (List.prefix_iff_eq_take.1 h.reads).symm

end StandsAt

/-- The places behind a part of the text are the one just behind it and those behind one more
character. -/
theorem standsAt_behind_iff {c : Char} :
    pre.length ≤ i ∧ StandsAt (pre ++ c :: rest) word i ↔
      (i = pre.length ∧ StandsAt (pre ++ c :: rest) word pre.length) ∨
        (pre.length + 1 ≤ i ∧ StandsAt (pre ++ [c] ++ rest) word i) := by
  rw [List.append_cons]
  constructor
  · rintro ⟨le, h⟩
    rcases Nat.eq_or_lt_of_le le with rfl | lt
    · exact .inl ⟨rfl, h⟩
    · exact .inr ⟨lt, h⟩
  · rintro (⟨rfl, h⟩ | ⟨lt, h⟩)
    · exact ⟨Nat.le_refl _, h⟩
    · exact ⟨Nat.le_of_succ_le lt, h⟩

/-! ## The search -/

theorem pairwise_wordStarts (word : List Char) (skip offset : Nat) (before : Option Char)
    (text : List Char) :
    (wordStarts word skip offset before text).Pairwise (· < ·) ∧
      ∀ i ∈ wordStarts word skip offset before text, offset ≤ i := by
  fun_induction wordStarts word skip offset before text with
  | case1 => simp
  | case2 => simp
  | case3 offset before c text n ih => exact ⟨ih.1, fun i hi => Nat.le_of_succ_le (ih.2 i hi)⟩
  | case4 offset before c text found ih =>
    refine ⟨List.pairwise_cons.2 ⟨ih.2, ih.1⟩, fun i hi => ?_⟩
    rcases List.mem_cons.1 hi with rfl | hi
    · exact Nat.le_refl _
    · exact Nat.le_of_succ_le (ih.2 i hi)
  | case5 offset before c text free ih => exact ⟨ih.1, fun i hi => Nat.le_of_succ_le (ih.2 i hi)⟩

/-- The search finds every place behind `pre` where a name stands by itself. The characters that it
skips follow a character of the name found last and belong to it, so no place is among them. -/
theorem mem_wordStarts (nonempty : word ≠ []) (plain : ∀ c ∈ word, Text.isNamePart c = true)
    {skip : Nat} (follows : skip ≠ 0 → pre.getLast?.any Text.isNamePart = true)
    (belongs : ∀ c ∈ rest.take (skip - 1), Text.isNamePart c = true) :
    i ∈ wordStarts word skip pre.length pre.getLast? rest ↔
      pre.length ≤ i ∧ StandsAt (pre ++ rest) word i := by
  induction rest generalizing pre skip with
  | nil =>
    have free : word.isPrefixOf ([] : List Char) = false := by
      rw [← Bool.not_eq_true, List.isPrefixOf_iff_prefix, List.prefix_nil]
      exact nonempty
    have short : ¬ (pre.length ≤ i ∧ StandsAt (pre ++ []) word i) := by
      rintro ⟨le, h⟩
      have inside := h.lt_length nonempty
      rw [List.append_nil] at inside
      exact absurd le (Nat.not_le.2 inside)
    refine iff_of_false ?_ short
    simp [wordStarts, startsWord, free]
  | cons c rest ih =>
    have next {skip : Nat} (follows : skip ≠ 0 → Text.isNamePart c = true)
        (belongs : ∀ c ∈ rest.take (skip - 1), Text.isNamePart c = true) :
        i ∈ wordStarts word skip (pre.length + 1) (some c) rest ↔
          pre.length + 1 ≤ i ∧ StandsAt (pre ++ [c] ++ rest) word i := by
      have later : i ∈ wordStarts word skip (pre ++ [c]).length (pre ++ [c]).getLast? rest ↔
          (pre ++ [c]).length ≤ i ∧ StandsAt (pre ++ [c] ++ rest) word i :=
        ih (by simpa using follows) belongs
      simpa using later
    rw [standsAt_behind_iff, standsAt_append_iff]
    cases skip with
    | succ n =>
      have skipped : pre.getLast?.any Text.isNamePart = true := follows (Nat.succ_ne_zero n)
      rw [wordStarts, next, skipped]
      · simp
      · intro more
        exact belongs c (by simp [List.take_cons (Nat.pos_of_ne_zero more)])
      · intro d hd
        cases n with
        | zero => simp at hd
        | succ n => exact belongs d (by simp_all)
    | zero =>
      rw [wordStarts]
      split
      · next found =>
        have starts : word <+: c :: rest := by
          simp only [startsWord, Bool.and_eq_true, List.isPrefixOf_iff_prefix] at found
          exact found.2.1
        obtain ⟨d, tail, rfl⟩ := List.exists_cons_of_ne_nil nonempty
        obtain ⟨rfl, starts⟩ := List.cons_prefix_cons.1 starts
        rw [List.mem_cons, next, found]
        · simp
        · exact fun _ => plain d List.mem_cons_self
        · intro x hx
          rw [List.prefix_iff_eq_take.1 starts] at plain
          refine plain x (List.mem_cons_of_mem d ?_)
          exact (List.take_subset_take_left _ (by simp)) hx
      · next free =>
        rw [next (fun h => absurd rfl h) (by simp)]
        simp [free]

/-! ## The locations of a word -/

/-- The location of a source between two offsets. -/
structure Location.IsAt (l : Location) (s : Source) (start stop : Nat) : Prop where
  source : l.source = some s
  start : l.start = s.positionAt start
  stop : l.stop = s.positionAt stop

theorem Location.IsAt.start_offset {l : Location} {s : Source} {start stop : Nat}
    (h : l.IsAt s start stop) : l.start.offset = start := by
  rw [h.start, s.offset_positionAt]

theorem Location.IsAt.stop_offset {l : Location} {s : Source} {start stop : Nat}
    (h : l.IsAt s start stop) : l.stop.offset = stop := by
  rw [h.stop, s.offset_positionAt]

namespace Source

variable {s : Source} {word : String} {l : Location} {start stop : Nat}

theorem isAt_of_location? (h : s.location? start stop = .ok l) : l.IsAt s start stop := by
  rw [location?] at h
  split at h
  · cases h
  · split at h
    · cases h
    · next ordered inside =>
      have forwards : start ≤ stop := by
        simp only [Bool.or_eq_true, decide_eq_true_eq] at ordered
        omega
      have within : stop ≤ s.length := by omega
      obtain ⟨l', answer, source, first, last⟩ := location?_isOk forwards within
      rw [location?, if_neg ordered, if_neg inside] at answer
      cases h.symm.trans answer
      exact ⟨source, first, last⟩

/-- A word that is made of the characters of names is located exactly at the places where it stands
by itself, in the order of the text, and no two of its locations share an offset. -/
theorem locateWord_complete (s : Source) (word : String) (nonempty : word ≠ "")
    (plain : ∀ c ∈ word.toList, Text.isNamePart c = true) :
    ∃ found, s.locateWord word = .ok found ∧
      (∀ start, StandsAt s.chars word.toList start →
        ∃ l ∈ found, l.IsAt s start (start + word.length)) ∧
      (∀ l ∈ found, l.text? = some word ∧ ∃ start, StandsAt s.chars word.toList start ∧
        l.IsAt s start (start + word.length)) ∧
      found.Pairwise fun l l' => l.start.offset < l'.start.offset ∧ l.outside l' = true := by
  have nonempty : word.toList ≠ [] := fun empty => nonempty (String.toList_eq_nil_iff.1 empty)
  have places (start : Nat) : start ∈ wordStarts word.toList 0 0 none s.chars ↔
      StandsAt s.chars word.toList start := by
    have behind : start ∈ wordStarts word.toList 0 ([] : List Char).length none s.chars ↔
        0 ≤ start ∧ StandsAt ([] ++ s.chars) word.toList start :=
      mem_wordStarts nonempty plain (fun h => absurd rfl h) (by simp)
    simpa using behind
  have each : ∀ start ∈ wordStarts word.toList 0 0 none s.chars,
      ∃ l, s.location? start (start + word.length : Nat) = .ok l := fun start member => by
    have inside := ((places start).1 member).add_length_le nonempty
    rw [String.length_toList, s.length_chars] at inside
    obtain ⟨l, answer, -⟩ := location?_isOk (Nat.le_add_right start word.length) inside
    exact ⟨l, answer⟩
  obtain ⟨found, answer, origin⟩ := mapM_isOk each
  have starts : wordStarts word.toList 0 0 none s.chars = found.map (·.start.offset) := by
    rw [← List.forall₂_eq_eq_eq, List.forall₂_map_right_iff]
    exact (forall₂_of_mapM answer).imp fun _ _ h => (isAt_of_location? h).start_offset.symm
  have stands : ∀ l ∈ found, StandsAt s.chars word.toList l.start.offset ∧
      l.IsAt s l.start.offset (l.start.offset + word.length) := by
    intro l member
    obtain ⟨start, listed, located⟩ := origin l member
    have isAt := isAt_of_location? located
    rw [isAt.start_offset]
    exact ⟨(places start).1 listed, isAt⟩
  refine ⟨found, answer, ?_, ?_, ?_⟩
  · intro start here
    obtain ⟨l, member, rfl⟩ := List.mem_map.1 (starts ▸ (places start).2 here)
    exact ⟨l, member, (stands l member).2⟩
  · intro l member
    obtain ⟨here, isAt⟩ := stands l member
    refine ⟨?_, l.start.offset, here, isAt⟩
    have read := here.take_drop_eq
    rw [Location.text?, isAt.source, Option.map_some, slice, isAt.stop_offset,
      ← String.length_toList, read, String.ofList_toList]
  · have order := (pairwise_wordStarts word.toList 0 0 none s.chars).1
    rw [starts, List.pairwise_map] at order
    refine order.imp_of_mem fun {l l'} member member' lt => ⟨lt, ?_⟩
    have apart := (stands l member).1.add_length_lt (stands l' member').1 plain lt
    rw [String.length_toList, ← (stands l member).2.stop_offset] at apart
    simp [Location.outside, Location.intersects, Nat.not_le.2 apart]

/-- Names with a dollar sign and with letters outside ASCII, and parts of longer names. -/
def severalNames : Source := ⟨"names", "a$ é$a$ a$=a$;a$é _a$"⟩

theorem locateWord_complete_severalNames :
    "a$" ≠ "" ∧ (∀ c ∈ "a$".toList, Text.isNamePart c = true) ∧
      ∃ found, severalNames.locateWord "a$" = .ok found ∧
        found.map (fun l => (l.start.offset, l.stop.offset)) = [(0, 2), (8, 10), (11, 13)] ∧
        (∀ l ∈ found, l.text? = some "a$") ∧
        found.Pairwise fun l l' => l.start.offset < l'.start.offset ∧ l.outside l' = true := by
  have plain : ∀ c ∈ "a$".toList, Text.isNamePart c = true := List.all_eq_true.1 (by decide)
  obtain ⟨found, answer, -, text, apart⟩ :=
    locateWord_complete severalNames "a$" (by decide) plain
  have computed : (severalNames.locateWord "a$").toOption.map
      (·.map fun l => (l.start.offset, l.stop.offset)) = some [(0, 2), (8, 10), (11, 13)] := by
    decide
  rw [answer] at computed
  exact ⟨by decide, plain, found, answer, Option.some.inj computed, fun l member =>
    (text l member).1, apart⟩

end Source

end JavaScope
