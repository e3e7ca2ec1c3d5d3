import JavaScope.Unit.Basic
import JavaScope.Proofs.Grammar
import JavaScope.Proofs.Source.Offsets

/-!
# Ranges of nodes in the source

The character at a byte of the parsed text counts the characters of the source that end there or
earlier, so a later byte never has an earlier character, and the characters of a node lie within those
of the nodes above it.
-/

namespace JavaScope

namespace ParsedUnit

open Text.Utf8

variable (u : ParsedUnit)

/-! ## Characters at bytes -/

/-- The characters of the source that end at or before a byte, also where each of them is one byte. -/
theorem charOffset_eq_wholeChars (byte : Int) : u.charOffset byte =
    wholeChars (min (byte - u.openingBytes).toNat u.source.byteLength) u.source.chars := by
  rw [charOffset, Source.charOffset_eq_wholeChars (Nat.min_le_right _ _), Int.toNat_natCast]

theorem charOffset_mono {a b : Int} (h : a ≤ b) : u.charOffset a ≤ u.charOffset b := by
  rw [charOffset_eq_wholeChars, charOffset_eq_wholeChars]
  exact wholeChars_mono (by omega) u.source.chars

theorem charOffset_le_length (b : Int) : u.charOffset b ≤ u.source.length := by
  rw [charOffset_eq_wholeChars, ← Source.length_chars]
  exact wholeChars_le_length _ _

variable {u} in
/-- Between two characters of the source, the character is the number of those before. -/
theorem charOffset_eq_length {byte : Int} {before after : List Char}
    (chars : u.source.chars = before ++ after)
    (shifted : min (byte - u.openingBytes).toNat u.source.byteLength = size before) :
    u.charOffset byte = before.length := by
  rw [charOffset_eq_wholeChars, shifted, chars, wholeChars_append]

/-! ## Characters of nodes -/

variable {u} in
/-- A node that does not count as the root spans what stands at its bytes. -/
theorem charRange_of_not_isSame {n : Node} (other : n.isSame u.tree.root = false) :
    u.charRange n = (u.charOffset n.start, u.charOffset n.stop) := by
  rw [charRange, other, Bool.and_false, if_neg Bool.false_ne_true]

theorem charRange_inside (n : Node) : (u.charRange n).2 ≤ u.source.length := by
  unfold charRange
  split
  · exact Nat.le_refl _
  · exact u.charOffset_le_length _

theorem charRange_ordered {n : Node} (h : n.start ≤ n.stop) :
    (u.charRange n).1 ≤ (u.charRange n).2 := by
  unfold charRange
  split
  · exact Nat.zero_le _
  · exact u.charOffset_mono (Int.ofNat_le.2 h)

/-- The characters of a node lie within those of the nodes above it. -/
theorem charRange_nested {m n : Node} (nested : u.tree.IsNested) (h : m ∈ u.tree.root.preorder)
    (below : n ∈ m.preorder) :
    (u.charRange m).1 ≤ (u.charRange n).1 ∧ (u.charRange n).2 ≤ (u.charRange m).2 := by
  by_cases top : n = u.tree.root
  · -- nothing is above the root
    rw [top] at below
    rw [top, Node.mem_preorder_antisymm below h]
    exact ⟨Nat.le_refl _, Nat.le_refl _⟩
  · have other := nested.ownRoot.isSame_eq_false (Node.mem_preorder_trans h below) top
    have bytes := nested.within h below
    have inside := u.charRange_inside n
    rw [charRange_of_not_isSame other] at inside ⊢
    rw [charRange]
    split
    · exact ⟨Nat.zero_le _, inside⟩
    · exact ⟨u.charOffset_mono (by omega), u.charOffset_mono (by omega)⟩

end ParsedUnit

end JavaScope
