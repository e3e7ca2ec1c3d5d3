import JavaScope.Proofs.Text.Boundary

/-!
# Bytes and back

The bytes of a text, and the characters that a run of bytes shows. Bytes at which no whole character
starts are dropped, so a cut in the middle of a character loses that character and nothing else:
what a beginning of the bytes shows are the characters that end in it.
-/

namespace JavaScope.Text.Utf8

/-- The bytes of a text. -/
def encode (text : List Char) : List UInt8 :=
  text.flatMap String.utf8EncodeChar

/-- The characters that bytes show. A byte at which no whole character starts is dropped. -/
def decode : List UInt8 → List Char
  | [] => []
  | b :: bytes =>
    match (b :: bytes).toByteArray.utf8DecodeChar? 0 with
    | some c => c :: decode (bytes.drop (c.utf8Size - 1))
    | none => decode bytes
  termination_by bytes => bytes.length

@[simp] theorem encode_nil : encode [] = [] := rfl

@[simp] theorem encode_cons (c : Char) (text : List Char) :
    encode (c :: text) = String.utf8EncodeChar c ++ encode text := rfl

theorem length_encode (text : List Char) : (encode text).length = size text := by
  induction text with
  | nil => rfl
  | cons c text ih => rw [encode_cons, List.length_append, String.length_utf8EncodeChar, ih, size_cons]

/-! ## Whole characters -/

/-- Bytes that start with those of a character show it first. -/
theorem utf8DecodeChar?_encodeChar_append (c : Char) (bytes : List UInt8) :
    (String.utf8EncodeChar c ++ bytes).toByteArray.utf8DecodeChar? 0 = some c := by
  rw [List.toByteArray_append, ← List.utf8Encode_singleton]
  exact List.utf8DecodeChar?_utf8Encode_singleton_append

theorem decode_encodeChar_append (c : Char) (bytes : List UInt8) :
    decode (String.utf8EncodeChar c ++ bytes) = c :: decode bytes := by
  have first := utf8DecodeChar?_encodeChar_append c bytes
  have length := String.length_utf8EncodeChar c
  have pos := c.utf8Size_pos
  cases encoded : String.utf8EncodeChar c with
  | nil =>
    rw [encoded, List.length_nil] at length
    omega
  | cons b rest =>
    rw [encoded, List.length_cons] at length
    rw [encoded, List.cons_append] at first
    have short : rest.length = c.utf8Size - 1 := by omega
    rw [List.cons_append, decode, first]
    dsimp only
    rw [← short, List.drop_left]

/-! ## Cut characters -/

/-- The bytes that a character is read from have at least its length. -/
theorem utf8Size_le_of_utf8DecodeChar? {bytes : List UInt8} {c : Char}
    (h : bytes.toByteArray.utf8DecodeChar? 0 = some c) : c.utf8Size ≤ bytes.length := by
  have split := congrArg ByteArray.size (ByteArray.eq_of_utf8DecodeChar?_eq_some h)
  simp only [ByteArray.size_append, List.size_toByteArray, String.length_utf8EncodeChar] at split
  omega

/-- No character starts inside the bytes of another one, nor at a beginning of them that is cut
short. -/
theorem utf8DecodeChar?_cut {c : Char} {stop : Nat} (short : stop < c.utf8Size) (start : Nat) :
    (((String.utf8EncodeChar c).take stop).drop start).toByteArray.utf8DecodeChar? 0 = none := by
  cases read : (((String.utf8EncodeChar c).take stop).drop start).toByteArray.utf8DecodeChar? 0 with
  | none => rfl
  | some d =>
    exfalso
    have long := utf8Size_le_of_utf8DecodeChar? read
    have pos := d.utf8Size_pos
    cases start with
    | zero =>
      -- the bytes that were cut off complete the same character and `c`
      rw [List.drop_zero] at read long
      have completed := ByteArray.utf8DecodeChar?_append_eq_some read
        ((String.utf8EncodeChar c).drop stop).toByteArray
      rw [← List.toByteArray_append, List.take_append_drop] at completed
      have whole := utf8DecodeChar?_encodeChar_append c []
      rw [List.append_nil, completed] at whole
      cases whole
      rw [List.length_take] at long
      omega
    | succ start =>
      have first := ByteArray.isUTF8FirstByte_of_isSome_utf8DecodeChar?
        (Option.isSome_iff_exists.2 ⟨d, read⟩)
      rw [List.getElem_toByteArray, List.getElem_drop, List.getElem_take,
        UInt8.isUTF8FirstByte_getElem_utf8EncodeChar] at first
      omega

/-- A character that is cut short is dropped. -/
theorem decode_cut {c : Char} {stop : Nat} (short : stop < c.utf8Size) :
    decode ((String.utf8EncodeChar c).take stop) = [] := by
  have suffixes : ∀ k start, ((String.utf8EncodeChar c).take stop).length - start = k →
      decode (((String.utf8EncodeChar c).take stop).drop start) = [] := by
    intro k
    induction k with
    | zero =>
      intro start left
      rw [List.drop_eq_nil_of_le (by omega), decode]
    | succ k ih =>
      intro start left
      have none := utf8DecodeChar?_cut short start
      have there : start < ((String.utf8EncodeChar c).take stop).length := by omega
      rw [List.drop_eq_getElem_cons there] at none ⊢
      rw [decode, none]
      exact ih (start + 1) (by omega)
  exact suffixes _ 0 rfl

/-! ## Beginnings of the bytes of a text -/

/-- A beginning of the bytes of a text shows the characters that end in it. -/
theorem decode_take_encode (n : Nat) (text : List Char) :
    decode ((encode text).take n) = text.take (wholeChars n text) := by
  induction text generalizing n with
  | nil => simp [decode, wholeChars]
  | cons c text ih =>
    have length := String.length_utf8EncodeChar c
    rw [encode_cons, wholeChars, List.take_append, length]
    split
    · next fits =>
      rw [List.take_of_length_le (by omega), decode_encodeChar_append, ih, List.take_succ_cons]
    · next cut =>
      have nothing : n - c.utf8Size = 0 := by omega
      rw [nothing, List.take_zero, List.append_nil, List.take_zero, decode_cut (by omega)]

end JavaScope.Text.Utf8
