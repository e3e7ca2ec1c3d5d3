import JavaScope.Range.Position
import JavaScope.Source.Lines
import JavaScope.Text.Utf8

/-!
# Sources

A named text, its positions, and the conversion between offsets in characters and in bytes. Line
breaks are a line feed, a carriage return, and the two together as one break.
-/

namespace JavaScope

/-- A named text. -/
structure Source where
  name : String
  content : String
  deriving DecidableEq, Repr

/-- The place where a slice that ends at `n` stops: a negative `n` counts from the end, and nothing
goes beyond the ends. -/
def sliceEnd (n : Int) (length : Nat) : Nat :=
  if n < 0 then (length + n).toNat else min n.toNat length

namespace Source

/-- The characters of a source. -/
def chars (s : Source) : List Char :=
  s.content.toList

/-- The number of characters. -/
def length (s : Source) : Nat :=
  s.content.length

/-- The number of bytes. -/
def byteLength (s : Source) : Nat :=
  s.content.utf8ByteSize

/-- Every character is one byte long. -/
def isAscii (s : Source) : Bool :=
  s.byteLength == s.length

/-- The source holds nothing but blanks. -/
def isBlank (s : Source) : Bool :=
  Text.isBlankText s.chars

/-- The offsets at which the lines of a source begin. -/
def lineStarts (s : Source) : Array Nat :=
  JavaScope.lineStarts s.chars

/-- The line of an offset: the last one that begins at or before it, or else the first one. -/
def lineAt (s : Source) (offset : Int) : Nat :=
  bisectRight s.lineStarts offset 0 s.lineStarts.size (Nat.le_refl _) - 1

/-- The offset at which a line begins. -/
def lineStart (s : Source) (line : Nat) : Nat :=
  s.lineStarts.getD line 0

/-- The position of an offset, which may not be negative. -/
def positionAt? (s : Source) (offset : Int) : Except Fault Position :=
  Position.of? (s.lineAt offset) (offset - s.lineStart (s.lineAt offset)) offset

/-- The position of an offset that is not negative. -/
def positionAt (s : Source) (offset : Nat) : Position :=
  ⟨s.lineAt offset, offset - s.lineStart (s.lineAt offset), offset⟩

/-- The characters between two offsets. -/
def slice (s : Source) (start stop : Nat) : String :=
  String.ofList ((s.chars.take stop).drop start)

/-- The number of characters that end at or before a byte; in a text of ASCII characters the
number itself. -/
def charOffset (s : Source) (byte : Int) : Int :=
  if s.isAscii then byte
  else Text.Utf8.wholeChars (sliceEnd byte s.byteLength) s.chars

/-- The number of bytes before a character; in a text of ASCII characters the number itself. -/
def byteOffset (s : Source) (char : Int) : Int :=
  if s.isAscii then char
  else Text.Utf8.size (s.chars.take (sliceEnd char s.length))

/-- The text of a source, which leaves out the content. -/
def display (s : Source) : String :=
  s!"Source(name={s.name}, code=...)"

theorem length_chars (s : Source) : s.chars.length = s.length :=
  String.length_toList

@[simp] theorem offset_positionAt (s : Source) (n : Nat) : (s.positionAt n).offset = n :=
  rfl

end Source

end JavaScope
