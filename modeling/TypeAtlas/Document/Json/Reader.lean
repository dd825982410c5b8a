import TypeAtlas.Document.Node
import TypeAtlas.Numeral.Hexadecimal

/-!
# Reading JSON

The grammar of RFC 8259, without extensions.  A string whose escapes stand for
no text, because a surrogate has no partner, is kept as a broken node: it only
matters to a reader that wants the text.
-/

namespace TypeAtlas

namespace Document

namespace Json

def isSpace (character : Char) : Bool :=
  character == ' ' || character == '\t' || character == '\n' ||
    character == '\r'

def skipSpace (text : List Char) : List Char :=
  text.dropWhile isSpace

def simpleEscape? : Char → Option Nat
  | '"' => some 0x22
  | '\\' => some 0x5C
  | '/' => some 0x2F
  | 'b' => some 0x08
  | 'f' => some 0x0C
  | 'n' => some 0x0A
  | 'r' => some 0x0D
  | 't' => some 0x09
  | _ => none

/-- Reads the inside of a string and its closing quote, as the codes of its
characters and escapes. -/
def readCodes : List Char → Option (List Nat × List Char)
  | '"' :: rest => some ([], rest)
  | '\\' :: 'u' :: first :: second :: third :: fourth :: rest => do
    let code ← Numeral.hexValue? [first, second, third, fourth]
    let (codes, rest) ← readCodes rest
    return (code :: codes, rest)
  | '\\' :: escape :: rest => do
    let code ← simpleEscape? escape
    let (codes, rest) ← readCodes rest
    return (code :: codes, rest)
  | character :: rest =>
    if character.toNat < 0x20 then none
    else (readCodes rest).map fun (codes, rest) =>
      (character.toNat :: codes, rest)
  | [] => none

/-- Whether a code is the first half of a surrogate pair. -/
def isHighSurrogate (code : Nat) : Bool := 0xD800 ≤ code && code < 0xDC00

/-- Whether a code is the second half of a surrogate pair. -/
def isLowSurrogate (code : Nat) : Bool := 0xDC00 ≤ code && code < 0xE000

/-- The characters that codes stand for, surrogate pairs joined. -/
def decodeCodes? : List Nat → Option (List Char)
  | [] => some []
  | [code] =>
    if isHighSurrogate code || isLowSurrogate code then none
    else some [Char.ofNat code]
  | code :: next :: rest =>
    if isHighSurrogate code && isLowSurrogate next then
      let joined := 0x10000 + (code - 0xD800) * 0x400 + (next - 0xDC00)
      (decodeCodes? rest).map (Char.ofNat joined :: ·)
    else if isHighSurrogate code || isLowSurrogate code then none
    else (decodeCodes? (next :: rest)).map (Char.ofNat code :: ·)

/-- The node of a string with the given codes. -/
def stringNode (codes : List Nat) : Node :=
  match decodeCodes? codes with
  | some characters => .text (String.ofList characters)
  | none => .brokenText

/-- Splits off the longest run of digits, which must not be empty. -/
def readDigits (text : List Char) : Option (List Char × List Char) :=
  match text.takeWhile Char.isDigit with
  | [] => none
  | digits => some (digits, text.dropWhile Char.isDigit)

/-- The whole part of a number: a lone zero, or digits that start otherwise. -/
def readWhole : List Char → Option (List Char × List Char)
  | '0' :: rest =>
    match rest with
    | next :: _ => if next.isDigit then none else some (['0'], rest)
    | [] => some (['0'], [])
  | text => readDigits text

/-- The fraction of a number, with its point; it may be missing. -/
def readFraction : List Char → Option (List Char × List Char)
  | '.' :: rest => (readDigits rest).map fun (digits, rest) =>
      ('.' :: digits, rest)
  | text => some ([], text)

/-- The exponent of a number, with its letter; it may be missing. -/
def readExponent : List Char → Option (List Char × List Char)
  | letter :: rest =>
    if letter == 'e' || letter == 'E' then
      let (sign, rest) :=
        match rest with
        | '+' :: rest => (['+'], rest)
        | '-' :: rest => (['-'], rest)
        | rest => ([], rest)
      (readDigits rest).map fun (digits, rest) =>
        (letter :: sign ++ digits, rest)
    else
      some ([], letter :: rest)
  | [] => some ([], [])

def readNumber (text : List Char) : Option (Node × List Char) := do
  let (sign, rest) :=
    match text with
    | '-' :: rest => (['-'], rest)
    | rest => ([], rest)
  let (whole, rest) ← readWhole rest
  let (fraction, rest) ← readFraction rest
  let (exponent, rest) ← readExponent rest
  return (.number (String.ofList (sign ++ whole ++ fraction ++ exponent)), rest)

/-- Reads the items of a sequence up to its closing bracket, the opening one and
following space being read.  Each round reads at least one character. -/
def readItems (readItem : List Char → Option (α × List Char)) (close : Char) :
    (rounds : Nat) → (text : List Char) → Option (List α × List Char)
  | 0, _ => none
  | rounds + 1, text => do
    let (item, rest) ← readItem text
    match skipSpace rest with
    | ',' :: rest =>
      let (items, rest) ← readItems readItem close rounds (skipSpace rest)
      return (item :: items, rest)
    | character :: rest =>
      if character == close then return ([item], rest) else none
    | [] => none

def readEntry (readValue : List Char → Option (Node × List Char)) :
    List Char → Option ((Node × Node) × List Char)
  | '"' :: rest => do
    let (codes, rest) ← readCodes rest
    match skipSpace rest with
    | ':' :: rest =>
      let (value, rest) ← readValue (skipSpace rest)
      return ((stringNode codes, value), rest)
    | _ => none
  | _ => none

/-- Reads one value with at most `levels` levels of nesting. -/
def readValue : (levels : Nat) → List Char → Option (Node × List Char)
  | 0, _ => none
  | levels + 1, text =>
    match text with
    | 'n' :: 'u' :: 'l' :: 'l' :: rest => some (.null, rest)
    | 't' :: 'r' :: 'u' :: 'e' :: rest => some (.boolean true, rest)
    | 'f' :: 'a' :: 'l' :: 's' :: 'e' :: rest => some (.boolean false, rest)
    | '"' :: rest => (readCodes rest).map fun (codes, rest) =>
        (stringNode codes, rest)
    | '[' :: rest =>
      match skipSpace rest with
      | ']' :: rest => some (.list [], rest)
      | rest =>
        (readItems (readValue levels) ']' (rest.length + 1) rest).map
          fun (items, rest) => (.list items, rest)
    | '{' :: rest =>
      match skipSpace rest with
      | '}' :: rest => some (.table [], rest)
      | rest =>
        let readPair := readEntry (readValue levels)
        (readItems readPair '}' (rest.length + 1) rest).map
          fun (entries, rest) => (.table entries, rest)
    | text => readNumber text

def read? (text : String) : Option Node := do
  let characters := skipSpace text.toList
  let (node, rest) ← readValue (characters.length + 1) characters
  if (skipSpace rest).isEmpty then some node else none

end Json

end Document

end TypeAtlas
