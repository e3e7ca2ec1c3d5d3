import JavaScope.Text.Printable

/-!
# Quoted text

A text between quotes, with one spelling for every text: apostrophes as quotes unless the text
holds an apostrophe and no double quote, escapes for the backslash, the quote in use and line
controls, and code numbers for the other characters that are not printable.
-/

namespace JavaScope.Text

/-- The apostrophe. -/
def apostrophe : Char := '\x27'

/-- The lower-case hexadecimal digits of a code point, filled up with zeros to `width`. -/
def hexDigits (width code : Nat) : List Char :=
  let digits := Nat.toDigits 16 code
  List.replicate (width - digits.length) '0' ++ digits

/-- How a character is written between quotes. -/
def escaped (quote c : Char) : List Char :=
  if c == '\\' || c == quote then ['\\', c]
  else if c == '\n' then ['\\', 'n']
  else if c == '\r' then ['\\', 'r']
  else if c == '\t' then ['\\', 't']
  else if isPrintable c then [c]
  else if c.toNat < 0x100 then '\\' :: 'x' :: hexDigits 2 c.toNat
  else if c.toNat < 0x10000 then '\\' :: 'u' :: hexDigits 4 c.toNat
  else '\\' :: 'U' :: hexDigits 8 c.toNat

/-- The quote that a text is written with. -/
def quoteFor (text : List Char) : Char :=
  if text.contains apostrophe && !text.contains '"' then '"' else apostrophe

/-- The text between quotes. -/
def quoted (text : String) : String :=
  let quote := quoteFor text.toList
  String.ofList (quote :: text.toList.flatMap (escaped quote) ++ [quote])

/-- Texts between quotes, in brackets and parted by commas. -/
def quotedList (texts : List String) : String :=
  "[" ++ String.intercalate ", " (texts.map quoted) ++ "]"

end JavaScope.Text
