import JavaScope.Range.Location
import JavaScope.Text.Word

/-!
# Words of a source

The places where a word stands by itself, and the name of the first class that a text declares.
A word stands by itself where neither neighbour is a word character or a dollar sign.
-/

namespace JavaScope

/-- The text starts with the word, and what follows does not continue it. -/
def startsWord (word text : List Char) : Bool :=
  word.isPrefixOf text && !(text.drop word.length).head?.any Text.isNamePart

/-- The offsets in a text at which the word stands by itself. The text starts at `offset`, after
the character `before`; its first `skip` characters belong to the last word found. -/
def wordStarts (word : List Char) (skip offset : Nat) (before : Option Char) :
    List Char → List Nat
  | [] => if skip = 0 && !before.any Text.isNamePart && startsWord word [] then [offset] else []
  | c :: text =>
    match skip with
    | n + 1 => wordStarts word n (offset + 1) (some c) text
    | 0 =>
      if !before.any Text.isNamePart && startsWord word (c :: text) then
        offset :: wordStarts word (word.length - 1) (offset + 1) (some c) text
      else wordStarts word 0 (offset + 1) (some c) text

/-- The name that a text declares where it starts with the word `class`, blanks and a name. -/
def classNameHere (text : List Char) : Option String :=
  if "class".toList.isPrefixOf text then
    let rest := text.drop 5
    match rest.takeWhile Text.isBlank, rest.dropWhile Text.isBlank with
    | _ :: _, c :: name =>
      if Text.isNameStart c then some (String.ofList (c :: name.takeWhile Text.isNamePart))
      else none
    | _, _ => none
  else none

/-- The name of the first class declared in a text that follows the character `before`. -/
def classNameAfter (before : Option Char) : List Char → Option String
  | [] => none
  | c :: text =>
    match if before.any Text.isWord then none else classNameHere (c :: text) with
    | some name => some name
    | none => classNameAfter (some c) text

/-- The name of the first class that a text declares. -/
def declaredClassName (content : String) : Option String :=
  classNameAfter none content.toList

namespace Source

/-- The locations at which a word stands by itself, in the order of the text. -/
def locateWord (s : Source) (word : String) : Except Fault (List Location) :=
  (wordStarts word.toList 0 0 none s.chars).mapM fun (start : Nat) =>
    s.location? start (start + word.length : Nat)

/-- A new version of a source: it takes the name of the first class it declares, or else keeps the
earlier name. -/
def revise (s : Source) (content : String) : Source :=
  ⟨(declaredClassName content).getD s.name, content⟩

end Source

end JavaScope
