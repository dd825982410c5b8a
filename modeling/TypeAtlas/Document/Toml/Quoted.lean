import TypeAtlas.Numeral.Hexadecimal

/-!
# Texts and keys in TOML

A text stands between quotes in one of four forms.  Basic forms have escapes
and literal forms have none; the forms with triple quotes may span lines.  When
a text is written, the form is the first one that needs no escapes, in a fixed
order of preference.  A key is a text that may also stand without quotes.
-/

namespace TypeAtlas

namespace Document

namespace Toml

/-- Whether a character may stand in a document only by an escape. -/
def isControl (character : Char) : Bool :=
  (character.toNat < 0x20 && character != '\t') || character.toNat == 0x7F

/-- The forms of a quoted text. -/
inductive Form where
  | basic | literal | basicLines | literalLines
  deriving Repr, DecidableEq

/-- The length of the longest run of a character, after a current run. -/
def longestRun (mark : Char) : (current : Nat) → List Char → Nat
  | current, [] => current
  | current, character :: rest =>
    if character == mark then longestRun mark (current + 1) rest
    else max current (longestRun mark 0 rest)

def formOf (text : List Char) : Form :=
  let spansLines := text.contains '\n'
  let isSafe := text.all fun character =>
    !isControl character || character == '\n'
  let escapeFree := isSafe && !text.contains '\\'
  if escapeFree && !spansLines && !text.contains '"' then .basic
  else if isSafe && !spansLines && !text.contains '\'' then .literal
  else if escapeFree && longestRun '"' 0 text ≤ 2 then .basicLines
  else if isSafe && longestRun '\'' 0 text ≤ 2 then .literalLines
  else if spansLines then .basicLines
  else .basic

/-- A character as it is written in a basic form. -/
def escape (character : Char) : List Char :=
  match character with
  | '"' => ['\\', '"']
  | '\\' => ['\\', '\\']
  | '\n' => ['\\', 'n']
  | '\r' => ['\\', 'r']
  | '\t' => ['\\', 't']
  | _ =>
    if character.toNat = 0x08 then ['\\', 'b']
    else if character.toNat = 0x0C then ['\\', 'f']
    else if isControl character then
      '\\' :: 'u' :: (Numeral.hexadecimal 4 character.toNat).map Char.toUpper
    else [character]

/-- A text as it is written between triple quotes, after a number of quotes:
line breaks and up to two quotes in a row stand for themselves. -/
def escapeLines : (quotes : Nat) → List Char → List Char
  | _, [] => []
  | quotes, character :: rest =>
    if character == '"' then
      if quotes < 2 then '"' :: escapeLines (quotes + 1) rest
      else '\\' :: '"' :: escapeLines 0 rest
    else if character == '\n' then '\n' :: escapeLines 0 rest
    else escape character ++ escapeLines 0 rest

/-- The line break that follows triple quotes if the text spans lines. -/
def openingBreak (text : List Char) : List Char :=
  if text.contains '\n' then ['\n'] else []

def tripled (quote : Char) : List Char :=
  [quote, quote, quote]

/-- A text with its quotes, in a given form. -/
def writeForm (text : List Char) : Form → List Char
  | .basic => '"' :: text.flatMap escape ++ ['"']
  | .literal => '\'' :: text ++ ['\'']
  | .basicLines =>
    tripled '"' ++ openingBreak text ++ escapeLines 0 text ++ tripled '"'
  | .literalLines =>
    tripled '\'' ++ openingBreak text ++ text ++ tripled '\''

def writeText (text : List Char) : List Char :=
  writeForm text (formOf text)

/-- Whether a character may stand in a key without quotes. -/
def isBare (character : Char) : Bool :=
  character.isAlphanum || character == '_' || character == '-'

def isBareKey (key : List Char) : Bool :=
  !key.isEmpty && key.all isBare

/-- The form in which a key is written between quotes, on one line. -/
def keyFormOf (key : List Char) : Form :=
  let isSafe := key.all fun character => !isControl character
  if isSafe && !key.contains '\\' && !key.contains '"' then .basic
  else if isSafe && !key.contains '\'' then .literal
  else .basic

def writeKey (key : List Char) : List Char :=
  if isBareKey key then key else writeForm key (keyFormOf key)

/-- The character of a code point that is no surrogate. -/
def scalar? (code : Nat) : Option Char :=
  if _valid : code.isValidChar then some (Char.ofNat code) else none

def simpleEscape? : Char → Option Char
  | '"' => some '"'
  | '\\' => some '\\'
  | 'b' => some (Char.ofNat 0x08)
  | 'f' => some (Char.ofNat 0x0C)
  | 'n' => some '\n'
  | 'r' => some '\r'
  | 't' => some '\t'
  | _ => none

/-- The character that an escape with hexadecimal digits stands for. -/
def codeEscape? (digits : List Char) : Option Char :=
  (Numeral.hexValue? digits).bind scalar?

/-- Puts a character in front of a text that was read. -/
def prepend (character : Char) (read : List Char × List Char) :
    List Char × List Char :=
  (character :: read.1, read.2)

/-- Reads the inside of a basic text on one line, and its closing quote. -/
def readBasic : List Char → Option (List Char × List Char)
  | '"' :: rest => some ([], rest)
  | '\\' :: 'u' :: a :: b :: c :: d :: rest => do
    return prepend (← codeEscape? [a, b, c, d]) (← readBasic rest)
  | '\\' :: 'U' :: a :: b :: c :: d :: e :: f :: g :: h :: rest => do
    return prepend (← codeEscape? [a, b, c, d, e, f, g, h]) (← readBasic rest)
  | '\\' :: letter :: rest => do
    return prepend (← simpleEscape? letter) (← readBasic rest)
  | character :: rest =>
    if isControl character then none
    else (readBasic rest).map (prepend character)
  | [] => none

/-- Reads the inside of a literal text on one line, and its closing quote. -/
def readLiteral : List Char → Option (List Char × List Char)
  | '\'' :: rest => some ([], rest)
  | character :: rest =>
    if isControl character then none
    else (readLiteral rest).map (prepend character)
  | [] => none

/-- Whether spaces, and then a line break, come next. -/
def endsLine : List Char → Bool
  | '\n' :: _ => true
  | character :: rest =>
    (character == ' ' || character == '\t') && endsLine rest
  | [] => false

/-- Reads the inside of a basic text that may span lines, and its closing
quotes.  Up to two quotes may stand before the closing ones.  While `isJoining`,
blanks and line breaks are passed over, as they are behind a backslash at the
end of a line. -/
def readBasicLines : (isJoining : Bool) → List Char →
    Option (List Char × List Char)
  | _, '"' :: '"' :: '"' :: '"' :: '"' :: rest => some (['"', '"'], rest)
  | _, '"' :: '"' :: '"' :: '"' :: rest => some (['"'], rest)
  | _, '"' :: '"' :: '"' :: rest => some ([], rest)
  | _, '\\' :: 'u' :: a :: b :: c :: d :: rest => do
    return prepend (← codeEscape? [a, b, c, d]) (← readBasicLines false rest)
  | _, '\\' :: 'U' :: a :: b :: c :: d :: e :: f :: g :: h :: rest => do
    return prepend (← codeEscape? [a, b, c, d, e, f, g, h])
      (← readBasicLines false rest)
  | _, '\\' :: letter :: rest =>
    if endsLine (letter :: rest) then readBasicLines true rest
    else do
      return prepend (← simpleEscape? letter) (← readBasicLines false rest)
  | isJoining, character :: rest =>
    if isJoining &&
        (character == ' ' || character == '\t' || character == '\n') then
      readBasicLines true rest
    else if isControl character && character != '\n' then none
    else (readBasicLines false rest).map (prepend character)
  | _, [] => none

/-- Reads the inside of a literal text that may span lines, and its closing
quotes. -/
def readLiteralLines : List Char → Option (List Char × List Char)
  | '\'' :: '\'' :: '\'' :: '\'' :: '\'' :: rest => some (['\'', '\''], rest)
  | '\'' :: '\'' :: '\'' :: '\'' :: rest => some (['\''], rest)
  | '\'' :: '\'' :: '\'' :: rest => some ([], rest)
  | character :: rest =>
    if isControl character && character != '\n' then none
    else (readLiteralLines rest).map (prepend character)
  | [] => none

/-- A text without the line break that it starts with, if it does. -/
def dropOpeningBreak : List Char → List Char
  | '\n' :: rest => rest
  | text => text

/-- Reads a text with its quotes; there is none where no quote comes next. -/
def readText : List Char → Option (List Char × List Char)
  | '"' :: '"' :: '"' :: rest => readBasicLines false (dropOpeningBreak rest)
  | '\'' :: '\'' :: '\'' :: rest => readLiteralLines (dropOpeningBreak rest)
  | '"' :: rest => readBasic rest
  | '\'' :: rest => readLiteral rest
  | _ => none

def readKeyPart (text : List Char) : Option (List Char × List Char) :=
  match text with
  | '"' :: rest => readBasic rest
  | '\'' :: rest => readLiteral rest
  | _ =>
    match text.takeWhile isBare with
    | [] => none
    | key => some (key, text.dropWhile isBare)

end Toml

end Document

end TypeAtlas
