/-!
# Bytes of a text

A text as its UTF-8 bytes, without building them: how many bytes it takes, how many characters end
at or before a byte, and the characters between two bytes. A character that a slice cuts shows as
replacement characters: one for each byte left over at the start of the slice, one for the bytes
begun at its end.
-/

namespace JavaScope.Text.Utf8

/-- The replacement character. -/
def replacement : Char := '\uFFFD'

/-- The number of bytes of a text. -/
def size : List Char → Nat
  | [] => 0
  | c :: cs => c.utf8Size + size cs

/-- The number of characters that end at or before byte `n`. -/
def wholeChars (n : Nat) : List Char → Nat
  | [] => 0
  | c :: cs => if c.utf8Size ≤ n then wholeChars (n - c.utf8Size) cs + 1 else 0

/-- The text between the bytes `start` and `stop`. -/
def slice (start stop : Nat) : List Char → List Char
  | [] => []
  | c :: cs =>
    if stop = 0 then []
    else if c.utf8Size ≤ start then slice (start - c.utf8Size) (stop - c.utf8Size) cs
    else if 0 < start then
      List.replicate (min stop c.utf8Size - start) replacement ++ slice 0 (stop - c.utf8Size) cs
    else if c.utf8Size ≤ stop then c :: slice 0 (stop - c.utf8Size) cs
    else [replacement]

@[simp] theorem size_nil : size [] = 0 := rfl

@[simp] theorem size_cons (c : Char) (cs : List Char) : size (c :: cs) = c.utf8Size + size cs := rfl

theorem size_append (s t : List Char) : size (s ++ t) = size s + size t := by
  induction s with
  | nil => simp
  | cons c cs ih => simp [ih, Nat.add_assoc]

theorem wholeChars_le_length (n : Nat) (text : List Char) : wholeChars n text ≤ text.length := by
  induction text generalizing n with
  | nil => simp [wholeChars]
  | cons c cs ih =>
    have := ih (n - c.utf8Size)
    unfold wholeChars
    split
    · simp; omega
    · simp

end JavaScope.Text.Utf8
