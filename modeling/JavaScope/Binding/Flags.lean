/-!
# Scope flags

Which kinds of declarations a scope query reports, and whether it leaves out those that cannot be
accessed.
-/

namespace JavaScope

/-- The kinds to report, and whether access is checked. -/
structure Flags where
  methods : Bool
  vars : Bool
  types : Bool
  checkVisibility : Bool
  deriving DecidableEq, Repr

namespace Flags

def none : Flags := ⟨false, false, false, false⟩
def onlyMethods : Flags := ⟨true, false, false, false⟩
def onlyVariables : Flags := ⟨false, true, false, false⟩
def onlyTypes : Flags := ⟨false, false, true, false⟩

/-- A bit of a number in two's complement. -/
def bit (n : Int) (place : Nat) : Bool :=
  n.shiftRight place % 2 == 1

/-- The flags that a number encodes; a negative number has all high bits. -/
def ofInt (n : Int) : Flags :=
  ⟨bit n 0, bit n 1, bit n 2, bit n 4⟩

/-- The flags of both sets. -/
def union (f g : Flags) : Flags :=
  ⟨f.methods || g.methods, f.vars || g.vars, f.types || g.types,
    f.checkVisibility || g.checkVisibility⟩

instance : Union Flags := ⟨union⟩

/-- The names of the flags that are set, in alphabetic order. -/
def names (f : Flags) : List String :=
  ([("check_visibility", f.checkVisibility), ("methods", f.methods), ("types", f.types),
    ("variables", f.vars)].filter (·.2)).map (·.1)

end Flags

end JavaScope
