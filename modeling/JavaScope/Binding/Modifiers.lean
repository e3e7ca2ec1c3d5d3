import JavaScope.Text.Uppercase

/-!
# Modifiers

The modifiers of a declaration as a set of flags, with the numbers that class files use for them.
-/

namespace JavaScope

/-- A set of modifiers, one bit for each. -/
structure Modifiers where
  bits : Nat
  deriving DecidableEq, Repr

namespace Modifiers

/-- The modifiers and their names in capitals. -/
def table : List (String × Nat) := [
  ("NONE", 0), ("PUBLIC", 0x0001), ("PRIVATE", 0x0002), ("PROTECTED", 0x0004), ("STATIC", 0x0008),
  ("FINAL", 0x0010), ("SYNCHRONIZED", 0x0020), ("VOLATILE", 0x0040), ("TRANSIENT", 0x0080),
  ("NATIVE", 0x0100), ("ABSTRACT", 0x0400), ("STRICTFP", 0x0800), ("DEFAULT", 0x10000),
  ("SEALED", 0x20000), ("NON_SEALED", 0x40000)]

def none : Modifiers := ⟨0⟩
def «public» : Modifiers := ⟨0x1⟩
def «private» : Modifiers := ⟨0x2⟩
def static : Modifiers := ⟨0x8⟩
def final : Modifiers := ⟨0x10⟩
def abstract : Modifiers := ⟨0x400⟩

/-- The modifiers of both sets. -/
def union (a b : Modifiers) : Modifiers :=
  ⟨a.bits ||| b.bits⟩

instance : Union Modifiers := ⟨union⟩

def isPublic (m : Modifiers) : Bool := m.bits.testBit 0
def isPrivate (m : Modifiers) : Bool := m.bits.testBit 1
def isProtected (m : Modifiers) : Bool := m.bits.testBit 2
def isStatic (m : Modifiers) : Bool := m.bits.testBit 3

/-- The name under which a keyword is listed: in capitals, with underscores. -/
def capitalName (keyword : String) : String :=
  String.ofList (keyword.toList.flatMap fun c => if c == '-' then ['_'] else Text.upperAscii c)

/-- The set that a keyword stands for; a word that is no modifier stands for none. -/
def ofKeyword (keyword : String) : Modifiers :=
  ⟨((table.find? fun entry => entry.1 == capitalName keyword).map (·.2)).getD 0⟩

/-- The set that a list of keywords spells. -/
def ofKeywords (keywords : List String) : Modifiers :=
  keywords.foldl (fun set keyword => set ∪ ofKeyword keyword) none

end Modifiers

end JavaScope
