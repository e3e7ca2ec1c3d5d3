import JavaScope.Source.Basic

/-!
# Boundaries of characters

A byte that stands between two characters of a text splits the text in two. Between such bytes,
counting characters and slicing bytes give back the parts of the text.
-/

namespace JavaScope

namespace Text.Utf8

/-- The byte stands between two characters of the text, or at one of its ends. -/
def IsBoundary (byte : Nat) (text : List Char) : Prop :=
  ∃ before after, text = before ++ after ∧ byte = size before

instance (byte : Nat) (text : List Char) : Decidable (IsBoundary byte text) :=
  decidable_of_iff ((List.range (text.length + 1)).any fun k => byte == size (text.take k)) <| by
    simp only [List.any_eq_true, List.mem_range, beq_iff_eq]
    constructor
    · rintro ⟨k, -, bytes⟩
      exact ⟨text.take k, text.drop k, (List.take_append_drop k text).symm, bytes⟩
    · rintro ⟨before, after, rfl, bytes⟩
      exact ⟨before.length, by rw [List.length_append]; omega, by rw [List.take_left, bytes]⟩

/-! ## Sizes -/

theorem utf8ByteSize_ofList (text : List Char) : (String.ofList text).utf8ByteSize = size text := by
  induction text with
  | nil => simp
  | cons c text ih =>
    rw [String.ofList_cons, String.utf8ByteSize_append, ih]
    simp

theorem utf8ByteSize_eq_size (s : String) : s.utf8ByteSize = size s.toList := by
  rw [← utf8ByteSize_ofList, String.ofList_toList]

theorem length_le_size (text : List Char) : text.length ≤ size text := by
  induction text with
  | nil => exact Nat.le_refl _
  | cons c text ih =>
    have := c.utf8Size_pos
    simp only [List.length_cons, size_cons]
    omega

/-- Of two beginnings of a text, the one with fewer bytes begins the other one. -/
theorem append_of_size_le {before after before' after' : List Char}
    (same : before ++ after = before' ++ after') (h : size before ≤ size before') :
    ∃ between, before' = before ++ between ∧ after = between ++ after' := by
  rcases List.append_eq_append_iff.1 same with ⟨between, rfl, rfl⟩ | ⟨between, rfl, rfl⟩
  · exact ⟨between, rfl, rfl⟩
  · have length := length_le_size between
    rw [size_append] at h
    have nothing : between = [] := List.eq_nil_of_length_eq_zero (by omega)
    subst nothing
    exact ⟨[], by simp, by simp⟩

/-! ## Parts -/

theorem wholeChars_append (before after : List Char) :
    wholeChars (size before) (before ++ after) = before.length := by
  induction before with
  | nil =>
    cases after with
    | nil => rfl
    | cons c after =>
      have := c.utf8Size_pos
      have short : ¬ c.utf8Size ≤ size [] := by simp only [size_nil]; omega
      rw [List.nil_append, wholeChars, if_neg short]
      rfl
  | cons c before ih =>
    rw [List.cons_append, size_cons, wholeChars, if_pos (Nat.le_add_right _ _),
      Nat.add_sub_cancel_left, ih]
    rfl

theorem size_take_mono {j k : Nat} (h : j ≤ k) (text : List Char) :
    size (text.take j) ≤ size (text.take k) := by
  have inner : text.take j = (text.take k).take j := by rw [List.take_take, Nat.min_eq_left h]
  have split := size_append ((text.take k).take j) ((text.take k).drop j)
  rw [List.take_append_drop, ← inner] at split
  omega

/-- The first `k` characters of a text end at or before byte `n` exactly if they are among the whole
characters there. -/
theorem size_take_le_iff {n k : Nat} {text : List Char} (h : k ≤ text.length) :
    size (text.take k) ≤ n ↔ k ≤ wholeChars n text := by
  induction text generalizing n k with
  | nil =>
    have none : k = 0 := Nat.le_zero.1 h
    simp [none]
  | cons c text ih =>
    cases k with
    | zero => simp
    | succ k =>
      rw [List.take_succ_cons, size_cons, wholeChars]
      split
      · next fits =>
        have rest := ih (n := n - c.utf8Size) (Nat.le_of_succ_le_succ h)
        omega
      · next cut => omega

theorem wholeChars_mono {m n : Nat} (h : m ≤ n) (text : List Char) :
    wholeChars m text ≤ wholeChars n text := by
  have within := wholeChars_le_length m text
  exact (size_take_le_iff within).1 (Nat.le_trans ((size_take_le_iff within).2 (Nat.le_refl _)) h)

theorem slice_zero_append (part after : List Char) : slice 0 (size part) (part ++ after) = part := by
  induction part with
  | nil =>
    cases after with
    | nil => rfl
    | cons c after => simp [slice]
  | cons c part ih =>
    have pos := c.utf8Size_pos
    have going : c.utf8Size + size part ≠ 0 := by omega
    have long : ¬ c.utf8Size ≤ 0 := by omega
    have whole : c.utf8Size ≤ c.utf8Size + size part := by omega
    rw [List.cons_append, size_cons, slice, if_neg going, if_neg long, if_neg (Nat.lt_irrefl 0),
      if_pos whole, Nat.add_sub_cancel_left, ih]

theorem slice_append (before part after : List Char) :
    slice (size before) (size before + size part) (before ++ part ++ after) = part := by
  induction before with
  | nil =>
    rw [size_nil, Nat.zero_add]
    exact slice_zero_append part after
  | cons c before ih =>
    have pos := c.utf8Size_pos
    have going : c.utf8Size + size before + size part ≠ 0 := by omega
    have skipped : c.utf8Size + size before + size part - c.utf8Size = size before + size part := by
      omega
    rw [List.cons_append, List.cons_append, size_cons, slice, if_neg going,
      if_pos (Nat.le_add_right _ _), Nat.add_sub_cancel_left, skipped]
    exact ih

/-- Between three boundaries stand two parts of the text, one after the other. -/
theorem slice_append_slice {start middle stop : Nat} {text : List Char}
    (atStart : IsBoundary start text) (atMiddle : IsBoundary middle text)
    (atStop : IsBoundary stop text) (first : start ≤ middle) (second : middle ≤ stop) :
    slice start middle text ++ slice middle stop text = slice start stop text := by
  obtain ⟨before, rest, split, rfl⟩ := atStart
  obtain ⟨before', rest', split', rfl⟩ := atMiddle
  obtain ⟨before'', after, split'', rfl⟩ := atStop
  obtain ⟨left, rfl, -⟩ := append_of_size_le (split.symm.trans split') first
  obtain ⟨right, rfl, -⟩ := append_of_size_le (split'.symm.trans split'') second
  have leftPart : slice (size before) (size (before ++ left)) text = left := by
    rw [split'', List.append_assoc _ right, size_append]
    exact slice_append before left _
  have rightPart : slice (size (before ++ left)) (size (before ++ left ++ right)) text = right := by
    rw [split'', size_append _ right]
    exact slice_append (before ++ left) right after
  have both : slice (size before) (size (before ++ left ++ right)) text = left ++ right := by
    rw [split'', List.append_assoc before, size_append before]
    exact slice_append before (left ++ right) after
  rw [leftPart, rightPart, both]

end Text.Utf8

namespace Source

open Text.Utf8

/-- The characters before a boundary are counted, also where every character is one byte. -/
theorem charOffset_size {s : Source} {before after : List Char} (h : s.chars = before ++ after) :
    s.charOffset (size before) = before.length := by
  have bytes : s.byteLength = size before + size after := by
    rw [byteLength, utf8ByteSize_eq_size, ← size_append, ← h]
    rfl
  unfold charOffset
  split
  · next ascii =>
    -- no part has fewer bytes than characters, and together they have equally many
    have length : s.byteLength = before.length + after.length := by
      rw [← List.length_append, ← h, length_chars]
      simpa [isAscii] using ascii
    have := length_le_size before
    have := length_le_size after
    omega
  · have stop : sliceEnd (size before) s.byteLength = size before := by
      rw [sliceEnd, bytes]
      split <;> omega
    rw [stop, h, wholeChars_append]

end Source

end JavaScope
