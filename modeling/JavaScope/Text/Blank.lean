import JavaScope.Text.RangeTable

/-!
# Blanks and line breaks

The blank characters, texts without their outer blanks, and the first line of a text.
-/

namespace JavaScope.Text

/-- Blank characters, as ranges of code points. -/
def blankRanges : List (Nat × Nat) := [
  (0x9, 0xd), (0x1c, 0x20), (0x85, 0x85), (0xa0, 0xa0), (0x1680, 0x1680), (0x2000, 0x200a),
  (0x2028, 0x2029), (0x202f, 0x202f), (0x205f, 0x205f), (0x3000, 0x3000)]

/-- White space of any script, line breaks included. -/
def isBlank (c : Char) : Bool :=
  inRanges blankRanges c.toNat

/-- Characters that end a line, as ranges of code points. -/
def lineBreakRanges : List (Nat × Nat) := [
  (0xa, 0xd), (0x1c, 0x1e), (0x85, 0x85), (0x2028, 0x2029)]

/-- A character that ends a line of a quoted text. -/
def isLineBreak (c : Char) : Bool :=
  inRanges lineBreakRanges c.toNat

/-- The text without the blanks at its two ends. -/
def strip (text : List Char) : List Char :=
  ((text.dropWhile isBlank).reverse.dropWhile isBlank).reverse

/-- The text holds nothing but blanks. -/
def isBlankText (text : List Char) : Bool :=
  text.all isBlank

/-- The text up to its first line break. -/
def firstLine (text : List Char) : List Char :=
  text.takeWhile fun c => !isLineBreak c

theorem isBlank_of_isLineBreak {c : Char} (h : isLineBreak c = true) : isBlank c = true := by
  simp only [isLineBreak, isBlank, inRanges, lineBreakRanges, blankRanges, List.any_cons,
    List.any_nil, Bool.or_false, Bool.or_eq_true, Bool.and_eq_true, decide_eq_true_eq] at h ⊢
  omega

theorem isLineBreak_of_mem_firstLine {text : List Char} {c : Char} (h : c ∈ firstLine text) :
    isLineBreak c = false := by
  have := List.all_eq_true.1 (List.all_takeWhile (p := fun c => !isLineBreak c) (l := text)) c h
  simpa using this

end JavaScope.Text
