import JavaScope.Proofs.Text.Decoding

/-!
# Offsets in characters and in bytes

Both conversions of offsets on the range of a source: they are what cutting the bytes and decoding
them gives, and what cutting the characters and encoding them gives, also where every character is
one byte and nothing is cut. An offset in characters comes back from its bytes, and an offset in
bytes goes to the characters that end at or before it.
-/

namespace JavaScope

namespace Text.Utf8

variable {text : List Char}

/-- Where a text has as many bytes as characters, so have its beginnings. -/
theorem size_take_of_size_eq_length (same : size text = text.length) {k : Nat}
    (h : k ≤ text.length) : size (text.take k) = k := by
  have split : size (text.take k) + size (text.drop k) = text.length := by
    rw [← size_append, List.take_append_drop, same]
  have first := length_le_size (text.take k)
  have second := length_le_size (text.drop k)
  rw [List.length_take] at first
  rw [List.length_drop] at second
  omega

theorem wholeChars_of_size_eq_length (same : size text = text.length) {n : Nat}
    (h : n ≤ text.length) : wholeChars n text = n := by
  have within := wholeChars_le_length n text
  have below := (size_take_le_iff within).2 (Nat.le_refl _)
  have above := (size_take_le_iff h).1 (Nat.le_of_eq (size_take_of_size_eq_length same h))
  rw [size_take_of_size_eq_length same within] at below
  omega

/-- The whole characters at or before a byte, counted one by one. -/
theorem wholeChars_eq_countP (n : Nat) (text : List Char) :
    wholeChars n text = (List.range text.length).countP fun i => size (text.take (i + 1)) ≤ n := by
  have within := wholeChars_le_length n text
  have ends : ∀ i ∈ List.range text.length,
      decide (size (text.take (i + 1)) ≤ n) = true ↔ decide (i < wholeChars n text) = true := by
    intro i hi
    rw [decide_eq_true_iff, decide_eq_true_iff, size_take_le_iff (List.mem_range.1 hi)]
    omega
  have counted : ∀ length, (List.range length).countP (fun i => i < wholeChars n text) =
      min length (wholeChars n text) := by
    intro length
    induction length with
    | zero => simp
    | succ length ih =>
      rw [List.range_succ, List.countP_append, ih, List.countP_singleton]
      split <;> simp_all <;> omega
  rw [List.countP_congr ends, counted]
  omega

end Text.Utf8

namespace Source

open Text.Utf8

/-- The bytes of a source. -/
def bytes (s : Source) : List UInt8 :=
  s.content.toByteArray.data.toList

theorem bytes_eq_encode (s : Source) : s.bytes = encode s.chars := by
  rw [bytes, ← String.utf8Encode_toList, List.utf8Encode, List.data_toByteArray]
  rfl

theorem byteLength_eq_size (s : Source) : s.byteLength = size s.chars :=
  utf8ByteSize_eq_size s.content

variable {s : Source}

theorem size_eq_length_of_isAscii (ascii : s.isAscii = true) : size s.chars = s.chars.length := by
  rw [length_chars, ← byteLength_eq_size]
  simpa [isAscii] using ascii

/-! ## The conversions on the range of the source -/

theorem charOffset_eq_wholeChars {b : Nat} (h : b ≤ s.byteLength) :
    s.charOffset b = wholeChars b s.chars := by
  rw [charOffset]
  split
  · next ascii =>
    have same := size_eq_length_of_isAscii ascii
    rw [byteLength_eq_size, same] at h
    rw [wholeChars_of_size_eq_length same h]
  · have cut : sliceEnd b s.byteLength = b := by
      rw [sliceEnd]
      split <;> omega
    rw [cut]

theorem byteOffset_eq_size {k : Nat} (h : k ≤ s.length) :
    s.byteOffset k = size (s.chars.take k) := by
  rw [byteOffset]
  split
  · next ascii =>
    rw [← length_chars] at h
    rw [size_take_of_size_eq_length (size_eq_length_of_isAscii ascii) h]
  · have cut : sliceEnd k s.length = k := by
      rw [sliceEnd]
      split <;> omega
    rw [cut]

theorem byteOffset_zero (s : Source) : s.byteOffset (0 : Nat) = 0 := by
  rw [byteOffset_eq_size (Nat.zero_le _), List.take_zero]
  rfl

theorem byteOffset_length (s : Source) : s.byteOffset s.length = s.byteLength := by
  rw [byteOffset_eq_size (Nat.le_refl _), ← length_chars, List.take_length, byteLength_eq_size]

theorem charOffset_byteOffset {k : Nat} (h : k ≤ s.length) : s.charOffset (s.byteOffset k) = k := by
  have split := List.take_append_drop k s.chars
  rw [byteOffset_eq_size h, charOffset_size split.symm, List.length_take, length_chars,
    Nat.min_eq_left h]

/-- A byte goes to the characters that end at or before it; the next one ends after it. -/
theorem charOffset_whole {b : Nat} (h : b ≤ s.byteLength) :
    ∃ k : Nat, s.charOffset b = k ∧
      k = (List.range s.length).countP (fun i => (encode (s.chars.take (i + 1))).length ≤ b) ∧
      s.byteOffset k ≤ b ∧ (k < s.length → b < s.byteOffset (k + 1)) := by
  obtain ⟨k, whole⟩ : ∃ k, k = wholeChars b s.chars := ⟨_, rfl⟩
  have chars := s.length_chars
  have within : k ≤ s.chars.length := whole ▸ wholeChars_le_length b s.chars
  refine ⟨k, by rw [charOffset_eq_wholeChars h, whole], ?_, ?_, ?_⟩
  · simp only [length_encode, ← chars, whole]
    exact wholeChars_eq_countP b s.chars
  · rw [byteOffset_eq_size (chars ▸ within), Int.ofNat_le]
    exact (size_take_le_iff within).2 (Nat.le_of_eq whole)
  · intro more
    have next : s.byteOffset (k + 1) = size (s.chars.take (k + 1)) := byteOffset_eq_size more
    have ends : size (s.chars.take (k + 1)) ≤ b ↔ k + 1 ≤ wholeChars b s.chars :=
      size_take_le_iff (by omega)
    omega

theorem charOffset_mono {b b' : Nat} (along : b ≤ b') (h : b' ≤ s.byteLength) :
    s.charOffset b ≤ s.charOffset b' := by
  rw [charOffset_eq_wholeChars (Nat.le_trans along h), charOffset_eq_wholeChars h, Int.ofNat_le]
  exact wholeChars_mono along s.chars

theorem byteOffset_mono {k k' : Nat} (along : k ≤ k') (h : k' ≤ s.length) :
    s.byteOffset k ≤ s.byteOffset k' := by
  rw [byteOffset_eq_size (Nat.le_trans along h), byteOffset_eq_size h, Int.ofNat_le]
  exact size_take_mono along s.chars

theorem charOffset_eq_decode {b : Nat} (h : b ≤ s.byteLength) :
    s.charOffset b = (decode (s.bytes.take b)).length := by
  rw [charOffset_eq_wholeChars h, bytes_eq_encode, decode_take_encode, List.length_take,
    Nat.min_eq_left (wholeChars_le_length b s.chars)]

theorem byteOffset_eq_encode {k : Nat} (h : k ≤ s.length) :
    s.byteOffset k = (encode (s.chars.take k)).length := by
  rw [byteOffset_eq_size h, length_encode]

/-- On the range of a source the conversions of offsets are inverse: the characters before an offset
come back from their bytes, and a byte goes to the characters that end at or before it. Both are
monotone. They are what cutting the bytes and decoding them gives, and cutting the characters and
encoding them, so a text of one byte for each character needs neither. -/
theorem offsets_inverse (s : Source) :
    (∀ k : Nat, k ≤ s.length → s.charOffset (s.byteOffset k) = k) ∧
      (∀ b : Nat, b ≤ s.byteLength → ∃ k : Nat, s.charOffset b = k ∧
        k = (List.range s.length).countP (fun i => (encode (s.chars.take (i + 1))).length ≤ b) ∧
        s.byteOffset k ≤ b ∧ (k < s.length → b < s.byteOffset (k + 1))) ∧
      (∀ b b' : Nat, b ≤ b' → b' ≤ s.byteLength → s.charOffset b ≤ s.charOffset b') ∧
      (∀ k k' : Nat, k ≤ k' → k' ≤ s.length → s.byteOffset k ≤ s.byteOffset k') ∧
      (∀ b : Nat, b ≤ s.byteLength → s.charOffset b = (decode (s.bytes.take b)).length ∧
        (s.isAscii = true → ((decode (s.bytes.take b)).length : Int) = b)) ∧
      ∀ k : Nat, k ≤ s.length → s.byteOffset k = (encode (s.chars.take k)).length ∧
        (s.isAscii = true → ((encode (s.chars.take k)).length : Int) = k) := by
  refine ⟨fun k => charOffset_byteOffset, fun b => charOffset_whole, fun b b' => charOffset_mono,
    fun k k' => byteOffset_mono, ?_, ?_⟩
  · intro b hb
    have general := charOffset_eq_decode hb
    refine ⟨general, fun ascii => ?_⟩
    rw [← general, charOffset, if_pos ascii]
  · intro k hk
    have general := byteOffset_eq_encode hk
    refine ⟨general, fun ascii => ?_⟩
    rw [← general, byteOffset, if_pos ascii]

/-- Characters of one to four bytes. -/
def mixed : Source :=
  ⟨"mixed", "aé€😀"⟩

/-- A cut after five bytes goes through the third character, which is dropped. -/
theorem offsets_inverse_mixed :
    (3 ≤ mixed.length ∧ mixed.charOffset (mixed.byteOffset 3) = 3) ∧
      5 ≤ mixed.byteLength ∧ (mixed.charOffset 5 = 2 ∧ mixed.byteOffset 2 = 3) ∧
      mixed.charOffset 5 = (decode (mixed.bytes.take 5)).length := by
  have chars : 3 ≤ mixed.length := by decide
  have bytes : 5 ≤ mixed.byteLength := by decide
  obtain ⟨back, -, -, -, general, -⟩ := offsets_inverse mixed
  exact ⟨⟨chars, back 3 chars⟩, bytes, by decide, (general 5 bytes).1⟩

example : (List.range 11).map (fun b : Nat => mixed.charOffset b) =
    [0, 1, 1, 2, 2, 2, 3, 3, 3, 3, 4] := by
  decide

end Source

end JavaScope
