/-!
# Blank characters

A blank is a character with the `White_Space` property.  Type expressions may
carry blanks around their tokens, and numbers are read from trimmed text, so
the property is given here as a table of code point ranges.  It is wider than
`Char.isWhitespace`, which knows four ASCII characters only.
-/

namespace TypeAtlas

namespace Text

/-- The ranges of code points with the `White_Space` property, ends included. -/
def blankRanges : List (Nat × Nat) :=
  [(0x09, 0x0D), (0x20, 0x20), (0x85, 0x85), (0xA0, 0xA0), (0x1680, 0x1680),
   (0x2000, 0x200A), (0x2028, 0x2029), (0x202F, 0x202F), (0x205F, 0x205F),
   (0x3000, 0x3000)]

def isBlank (character : Char) : Bool :=
  blankRanges.any fun range =>
    range.1 ≤ character.toNat && character.toNat ≤ range.2

def skipBlanks (characters : List Char) : List Char :=
  characters.dropWhile isBlank

def trim (text : String) : String :=
  String.ofList (skipBlanks (skipBlanks text.toList).reverse).reverse

def isBlankText (text : String) : Bool :=
  text.toList.all isBlank

end Text

end TypeAtlas
