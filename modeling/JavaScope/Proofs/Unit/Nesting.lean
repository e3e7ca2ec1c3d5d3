import JavaScope.Proofs.Source.Words
import JavaScope.Proofs.Unit.Text
import JavaScope.Range.Relation

/-!
# Locations keep the nesting of nodes

A byte of the parsed text is moved into the source before it is turned into a character: the bytes
of the wrapper go to the nearest end of the source. Both steps keep the order of the bytes, also
where a byte cuts a character, and the bytes of the source itself lead back to their characters. So
every node that does not end before it starts has a location, and the location of a node covers those
of the nodes below it.
-/

namespace JavaScope

namespace ParsedUnit

variable (u : ParsedUnit)

/-! ## Bytes of the parsed text -/

/-- The byte of the source that a byte of the parsed text is moved to, whichever integer that is. -/
def sourceByte (byte : Int) : Int :=
  min (max (byte - u.openingBytes) 0) u.source.byteLength

/-- The character at a byte is that of the byte in the source; no negative number is cut off. -/
theorem charOffset_eq_sourceByte (byte : Int) :
    (u.charOffset byte : Int) = u.source.charOffset (u.sourceByte byte) := by
  have moved :
      u.sourceByte byte = (min (byte - u.openingBytes).toNat u.source.byteLength : Nat) := by
    rw [sourceByte]
    omega
  rw [moved, Source.charOffset_eq_wholeChars (Nat.min_le_right _ _), charOffset_eq_wholeChars]

variable {u} {m n : Node} {k : Nat}

theorem sourceByte_byteOffset (h : k ≤ u.source.length) :
    u.sourceByte (u.openingBytes + u.source.byteOffset k) = u.source.byteOffset k := by
  have first := Source.byteOffset_mono (Nat.zero_le k) h
  have last := Source.byteOffset_mono h (Nat.le_refl _)
  rw [Source.byteOffset_zero] at first
  rw [Source.byteOffset_length] at last
  rw [sourceByte]
  omega

theorem charOffset_openingBytes_add (h : k ≤ u.source.length) :
    u.charOffset (u.openingBytes + u.source.byteOffset k) = k := by
  rw [← Int.ofNat_inj, charOffset_eq_sourceByte, sourceByte_byteOffset h,
    Source.charOffset_byteOffset h]

/-! ## Locations of nodes -/

theorem locate_isAt (h : n.start ≤ n.stop) :
    ∃ l, u.locate n = .ok l ∧ l.IsAt u.source (u.charRange n).1 (u.charRange n).2 := by
  obtain ⟨l, located, -⟩ := u.locate_isOk h
  exact ⟨l, located, Source.isAt_of_location? located⟩

theorem covers_of_locate {l l' : Location} (located : u.locate m = .ok l)
    (located' : u.locate n = .ok l') (start : (u.charRange m).1 ≤ (u.charRange n).1)
    (stop : (u.charRange n).2 ≤ (u.charRange m).2) : l.covers l' = true := by
  have isAt := Source.isAt_of_location? located
  have isAt' := Source.isAt_of_location? located'
  rw [Location.covers, isAt.start_offset, isAt.stop_offset, isAt'.start_offset, isAt'.stop_offset]
  exact Bool.and_eq_true_iff.2 ⟨decide_eq_true start, decide_eq_true stop⟩

variable (u)

/-- Every byte goes to a character of the source or to its end, a later one never to an earlier
character, and the bytes of the source lead back to their characters. So a node that does not end
before it starts is located, wherever its bytes lie; and where the nodes of the tree are nested, the
characters and the location of a node cover those of all nodes below it. -/
theorem locate_keeps_nesting :
    (∀ byte : Int, (u.charOffset byte : Int) = u.source.charOffset (u.sourceByte byte)) ∧
      (∀ a b : Int, a ≤ b → 0 ≤ u.source.charOffset (u.sourceByte a) ∧
        u.source.charOffset (u.sourceByte a) ≤ u.source.charOffset (u.sourceByte b) ∧
        u.source.charOffset (u.sourceByte b) ≤ u.source.length) ∧
      (∀ k : Nat, k ≤ u.source.length →
        u.charOffset (u.openingBytes + u.source.byteOffset k) = k) ∧
      (∀ n : Node, n.start ≤ n.stop →
        ∃ l, u.locate n = .ok l ∧ l.IsAt u.source (u.charRange n).1 (u.charRange n).2) ∧
      (u.tree.IsNested → ∀ m ∈ u.tree.root.preorder, ∀ n ∈ m.preorder,
        ((u.charRange m).1 ≤ (u.charRange n).1 ∧ (u.charRange n).2 ≤ (u.charRange m).2) ∧
          ∀ l l', u.locate m = .ok l → u.locate n = .ok l' → l.covers l' = true) := by
  refine ⟨u.charOffset_eq_sourceByte, ?_, fun k => charOffset_openingBytes_add,
    fun n => locate_isAt, ?_⟩
  · intro a b along
    have ordered := u.charOffset_mono along
    have bounded := u.charOffset_le_length b
    rw [← charOffset_eq_sourceByte, ← charOffset_eq_sourceByte]
    exact ⟨Int.natCast_nonneg _, Int.ofNat_le.2 ordered, Int.ofNat_le.2 bounded⟩
  · intro nested m hm n below
    obtain ⟨start, stop⟩ := u.charRange_nested nested hm below
    refine ⟨⟨start, stop⟩, fun l l' located located' => ?_⟩
    exact covers_of_locate located located' start stop

/-- A node from the middle of the accented letter to a byte behind the wrapper. -/
def cutNode : Node :=
  ⟨.named .fieldDeclaration none 21 40 [], []⟩

open Context (accentedUnit) in
theorem locate_keeps_nesting_accented :
    ((-3 : Int) ≤ 21 ∧ 0 ≤ accentedUnit.source.charOffset (accentedUnit.sourceByte (-3)) ∧
        accentedUnit.source.charOffset (accentedUnit.sourceByte (-3)) ≤
          accentedUnit.source.charOffset (accentedUnit.sourceByte 21) ∧
        accentedUnit.source.charOffset (accentedUnit.sourceByte 21) ≤ accentedUnit.source.length) ∧
      (5 ≤ accentedUnit.source.length ∧ accentedUnit.charOffset
        (accentedUnit.openingBytes + accentedUnit.source.byteOffset 5) = 5) ∧
      (cutNode.start ≤ cutNode.stop ∧
        ∃ l, accentedUnit.locate cutNode = .ok l ∧ l.IsAt accentedUnit.source 4 13) ∧
      accentedUnit.tree.IsNested ∧
        ∀ m ∈ accentedUnit.tree.root.preorder, ∀ n ∈ m.preorder,
          ((accentedUnit.charRange m).1 ≤ (accentedUnit.charRange n).1 ∧
            (accentedUnit.charRange n).2 ≤ (accentedUnit.charRange m).2) ∧
          ∀ l l', accentedUnit.locate m = .ok l → accentedUnit.locate n = .ok l' →
            l.covers l' = true := by
  have along : (-3 : Int) ≤ 21 := by decide
  have inside : 5 ≤ accentedUnit.source.length := by decide
  have forwards : cutNode.start ≤ cutNode.stop := by decide
  have nested : accentedUnit.tree.IsNested := ⟨by decide, by decide⟩
  have range : accentedUnit.charRange cutNode = (4, 13) := by decide
  obtain ⟨-, ordered, back, located, covering⟩ := locate_keeps_nesting accentedUnit
  obtain ⟨l, answer, isAt⟩ := located cutNode forwards
  rw [range] at isAt
  exact ⟨⟨along, ordered _ _ along⟩, ⟨inside, back 5 inside⟩, ⟨forwards, l, answer, isAt⟩, nested,
    covering nested⟩

/-- A file with a node like its root inside of another node. -/
def rootInside : ParsedUnit :=
  ⟨⟨"file", " x "⟩, .compilationUnit, .named .program none 1 2 [
    .named .block none 1 2 [.named .program none 1 2 []]], true⟩

-- The node like the root spans the whole source, and the one around it does not.
example : rootInside.tree.root.preorder.map rootInside.charRange = [(0, 3), (1, 2), (0, 3)] := by
  decide

end ParsedUnit

end JavaScope
