import JavaScope.Fault

/-!
# Positions

A point in a text: its line and column, counted from zero, and its offset in characters. Positions
are compared by their offsets alone.
-/

namespace JavaScope

/-- A point in a text. -/
structure Position where
  line : Nat
  column : Nat
  offset : Nat
  deriving DecidableEq, Repr

namespace Position

/-- The position with these coordinates; none of them may be negative. -/
def of? (line column offset : Int) : Except Fault Position :=
  if offset < 0 || line < 0 || column < 0 then .error (.negativePosition line column offset)
  else .ok ⟨line.toNat, column.toNat, offset.toNat⟩

/-- Both positions have one offset. -/
def same (a b : Position) : Bool :=
  a.offset == b.offset

/-- The first position comes before the second. -/
def before (a b : Position) : Bool :=
  a.offset < b.offset

/-- The text of a position. -/
def display (p : Position) : String :=
  s!"Position(line={p.line}, column={p.column}, offset={p.offset})"

theorem of?_eq_error_iff {line column offset : Int} {f : Fault} :
    of? line column offset = .error f ↔
      (offset < 0 ∨ line < 0 ∨ column < 0) ∧ f = .negativePosition line column offset := by
  unfold of?
  split
  · next h =>
    simp only [Bool.or_eq_true, decide_eq_true_eq] at h
    simp only [Except.error.injEq]
    constructor
    · rintro rfl
      exact ⟨by omega, rfl⟩
    · rintro ⟨_, rfl⟩
      rfl
  · next h =>
    simp only [Bool.or_eq_true, decide_eq_true_eq] at h
    simp only [reduceCtorEq, false_iff, not_and]
    omega

end Position

/-- Which of the six comparison signs hold, by the names of the signs in alphabetic order. -/
def comparisonNames (equal less : Bool) : List String :=
  ([("eq", equal), ("ge", !less), ("gt", !less && !equal), ("le", less || equal), ("lt", less),
    ("ne", !equal)].filter (·.2)).map (·.1)

end JavaScope
