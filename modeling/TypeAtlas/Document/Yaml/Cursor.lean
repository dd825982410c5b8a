/-!
# Places in YAML texts

In YAML it matters in which column and on which line something stands.  A
cursor is the rest of a text with its place.  Line breaks of one and of two
characters are made plain before the first cursor is taken; the separators of
lines and of paragraphs remain and break lines as well.
-/

namespace TypeAtlas

namespace Document

namespace Yaml

/-- Whether a character may occur in a text at all. -/
def isAllowed (character : Char) : Bool :=
  let code := character.toNat
  code == 0x09 || code == 0x0A || code == 0x0D ||
    (0x20 ≤ code && code ≤ 0x7E) || code == 0x85 ||
    (0xA0 ≤ code && code ≤ 0xFFFD) || 0x10000 ≤ code

/-- A text with plain line breaks in place of other ones that mean the same. -/
def plainBreaks : List Char → List Char
  | '\r' :: '\n' :: rest => '\n' :: plainBreaks rest
  | character :: rest =>
    let isPlain := character != '\r' && character.toNat != 0x85
    (if isPlain then character else '\n') :: plainBreaks rest
  | [] => []

def isBreak (character : Char) : Bool :=
  character == '\n' || character.toNat == 0x2028 ||
    character.toNat == 0x2029

def isSpace (character : Char) : Bool :=
  character == ' ' || character == '\t'

def isGap (character : Char) : Bool :=
  isSpace character || isBreak character

/-- Whether a text starts with a gap or is at its end. -/
def startsGap (text : List Char) : Bool :=
  text.head?.all isGap

/-- Whether a character may stand in an anchor and in the handle of a tag. -/
def isNameCharacter (character : Char) : Bool :=
  character.isAlphanum || character == '_' || character == '-'

/-- The rest of a text, with the place where it starts. -/
structure Cursor where
  rest : List Char
  /-- The number of characters before. -/
  index : Nat := 0
  line : Nat := 0
  column : Nat := 0

namespace Cursor

def step (cursor : Cursor) (character : Char) : Cursor :=
  if isBreak character then
    { cursor with
      index := cursor.index + 1, line := cursor.line + 1, column := 0 }
  else
    { cursor with index := cursor.index + 1, column := cursor.column + 1 }

def pass (cursor : Cursor) (count : Nat) : Cursor :=
  (cursor.rest.take count).foldl step
    { cursor with rest := cursor.rest.drop count }

/-- The cursor behind the longest run of characters of a kind. -/
def passWhile (cursor : Cursor) (isPassed : Char → Bool) : Cursor :=
  cursor.pass (cursor.rest.takeWhile isPassed).length

/-- The cursor at a later rest of its text. -/
def goTo (cursor : Cursor) (rest : List Char) : Cursor :=
  cursor.pass (cursor.rest.length - rest.length)

/-- Whether a line starts here with the mark that starts or ends documents. -/
def isAtDocumentMark (cursor : Cursor) : Bool :=
  cursor.column == 0 &&
    match cursor.rest with
    | '-' :: '-' :: '-' :: rest => startsGap rest
    | '.' :: '.' :: '.' :: rest => startsGap rest
    | _ => false

end Cursor

end Yaml

end Document

end TypeAtlas
