import TypeAtlas.Document.Node
import TypeAtlas.Numeral.Hexadecimal

/-!
# Literals of TOML

Truth values, numbers, dates and times are words without quotes.  A word is
checked as a whole.  Numbers stay as they are spelled; dates and times are put
into one spelling and wrapped, so that they are never taken for texts.
-/

namespace TypeAtlas

namespace Document

namespace Toml

/-- Digits of a base, in which an underscore may stand between two of them. -/
def isSpacedDigits (isDigit : Char → Bool) : List Char → Bool
  | [] => false
  | [digit] => isDigit digit
  | digit :: '_' :: rest => isDigit digit && isSpacedDigits isDigit rest
  | digit :: rest => isDigit digit && isSpacedDigits isDigit rest

def withoutSpacing (word : List Char) : List Char :=
  word.filter (· != '_')

/-- Whether a word is a decimal whole number that does not start with zeros. -/
def isWhole (word : List Char) : Bool :=
  match word with
  | ['0'] => true
  | '0' :: _ => false
  | _ => isSpacedDigits Char.isDigit word

/-- The least and the greatest whole number, as magnitudes. -/
def wholeLimit (negative : Bool) : Nat :=
  if negative then Nat.pow 2 63 else Nat.pow 2 63 - 1

/-- Whether a digit may stand in a number of a base. -/
def isDigitOf (base : Nat) (digit : Char) : Bool :=
  (Numeral.hexDigit? digit).any (· < base)

def valueInBase (base : Nat) (digits : List Char) : Nat :=
  digits.foldl (fun value digit =>
    base * value + (Numeral.hexDigit? digit).getD 0) 0

/-- The base that a mark behind a zero stands for. -/
def baseOf? : Char → Option Nat
  | 'x' => some 16
  | 'o' => some 8
  | 'b' => some 2
  | _ => none

/-- Whether a word is a whole number in range. -/
def isInteger (word : List Char) : Bool :=
  let isInBase : Bool :=
    match word with
    | '0' :: mark :: digits =>
      (baseOf? mark).any fun base =>
        isSpacedDigits (isDigitOf base) digits &&
          valueInBase base (withoutSpacing digits) ≤ wholeLimit false
    | _ => false
  let (negative, digits) := Numeral.readSign word
  isInBase ||
    (isWhole digits &&
      Numeral.digitsValue (withoutSpacing digits) ≤ wholeLimit negative)

/-- Whether a word is an exponent with its letter. -/
def isExponent : List Char → Bool
  | letter :: rest =>
    (letter == 'e' || letter == 'E') &&
      isSpacedDigits Char.isDigit (Numeral.readSign rest).2
  | [] => false

def startsExponent (character : Char) : Bool :=
  character == 'e' || character == 'E'

/-- Whether a word is a number with a point or an exponent.  A positive one must
be below infinity. -/
def isDecimal (word : List Char) : Bool :=
  let (negative, magnitude) := Numeral.readSign word
  let whole := magnitude.takeWhile fun character =>
    character != '.' && !startsExponent character
  let rest := magnitude.dropWhile fun character =>
    character != '.' && !startsExponent character
  let isTail : Bool :=
    match rest with
    | '.' :: rest =>
      let exponent := rest.dropWhile (!startsExponent ·)
      isSpacedDigits Char.isDigit (rest.takeWhile (!startsExponent ·)) &&
        (exponent.isEmpty || isExponent exponent)
    | rest => isExponent rest
  isWhole whole && isTail &&
    (negative || Node.isFiniteDecimal (withoutSpacing magnitude))

/-- Whether a word is a number of any kind. -/
def isNumber (word : List Char) : Bool :=
  isInteger word || isDecimal word ||
    (Numeral.readSign word).2 == ['i', 'n', 'f'] ||
    (Numeral.readSign word).2 == ['n', 'a', 'n']

/-- Reads a number of two digits that is not above a limit. -/
def readPair (least greatest : Nat) : List Char → Option (Nat × List Char)
  | tens :: ones :: rest =>
    if tens.isDigit && ones.isDigit then
      let value := Numeral.digitsValue [tens, ones]
      if least ≤ value && value ≤ greatest then some (value, rest) else none
    else
      none
  | _ => none

def readMark (mark : Char) : List Char → Option (List Char)
  | character :: rest => if character == mark then some rest else none
  | [] => none

def daysIn (year month : Nat) : Nat :=
  if month == 2 then
    if (year % 4 == 0 && year % 100 != 0) || year % 400 == 0 then 29 else 28
  else if month == 4 || month == 6 || month == 9 || month == 11 then 30
  else 31

/-- Reads a date, and gives it as it is spelled. -/
def readDate (word : List Char) : Option (List Char × List Char) := do
  let year := word.take 4
  if year.length < 4 || !year.all Char.isDigit then none
  let rest ← readMark '-' (word.drop 4)
  let (month, rest) ← readPair 1 12 rest
  let rest ← readMark '-' rest
  let (_, rest) ← readPair 1 (daysIn (Numeral.digitsValue year) month) rest
  return (word.take 10, rest)

/-- A list without the characters of a kind at its end. -/
def dropLast (isDropped : Char → Bool) (text : List Char) : List Char :=
  (text.reverse.dropWhile isDropped).reverse

/-- The greatest number of digits that count in a fraction of a second. -/
def secondPlaces : Nat := 9

/-- Reads a time of day, and gives it without zeros at its end. -/
def readTime (word : List Char) : Option (List Char × List Char) := do
  let (_, rest) ← readPair 0 23 word
  let rest ← readMark ':' rest
  let (_, rest) ← readPair 0 59 rest
  let rest ← readMark ':' rest
  let (_, rest) ← readPair 0 60 rest
  match rest with
  | '.' :: rest =>
    let places := rest.takeWhile Char.isDigit
    if places.isEmpty then none
    let counted := dropLast (· == '0') (places.take secondPlaces)
    let fraction := if counted.isEmpty then [] else '.' :: counted
    return (word.take 8 ++ fraction, rest.dropWhile Char.isDigit)
  | rest => return (word.take 8, rest)

/-- Reads the offset of a time, which may be missing and ends the word. -/
def readOffset : List Char → Option (List Char)
  | [] => some []
  | ['Z'] | ['z'] => some ['Z']
  | sign :: word => do
    if sign != '+' && sign != '-' then none
    let (hour, rest) ← readPair 0 23 word
    let rest ← readMark ':' rest
    let (minute, rest) ← readPair 0 59 rest
    if !rest.isEmpty then none
    let sign := if hour + minute == 0 then '+' else sign
    return sign :: word.take 5

/-- The one spelling of a date, a time, or both. -/
def moment? (word : List Char) : Option (List Char) :=
  match readDate word with
  | some (date, []) => some date
  | some (date, separator :: rest) => do
    if separator != 'T' && separator != 't' && separator != ' ' then none
    let (time, rest) ← readTime rest
    let offset ← readOffset rest
    return date ++ 'T' :: time ++ offset
  | none => do
    let (time, rest) ← readTime word
    if rest.isEmpty then some time else none

/-- The key under which the spelling of a date or time is wrapped. -/
def momentKey : String := "$__toml_private_datetime"

/-- The node that a word without quotes stands for. -/
def literal? (word : List Char) : Option Node :=
  if word == ['t', 'r', 'u', 'e'] then some (.boolean true)
  else if word == ['f', 'a', 'l', 's', 'e'] then some (.boolean false)
  else if isNumber word then some (.number (String.ofList word))
  else
    (moment? word).map fun spelling =>
      Node.record [(momentKey, .text (String.ofList spelling))]

/-- Whether a character may stand in a word without quotes. -/
def isWordCharacter (character : Char) : Bool :=
  character.isAlphanum || character == '_' || character == '-' ||
    character == '+' || character == '.' || character == ':'

/-- Whether a word is a date and the text goes on with a time behind a space. -/
def continuesWithTime (word rest : List Char) : Bool :=
  match readDate word, rest with
  | some (_, []), ' ' :: digit :: _ => digit.isDigit
  | _, _ => false

/-- Splits off the longest word without quotes, which may be empty. -/
def splitWord (text : List Char) : List Char × List Char :=
  let word := text.takeWhile isWordCharacter
  let rest := text.dropWhile isWordCharacter
  if continuesWithTime word rest then
    let time := rest.drop 1
    (word ++ ' ' :: time.takeWhile isWordCharacter,
      time.dropWhile isWordCharacter)
  else
    (word, rest)

def readLiteralWord (text : List Char) : Option (Node × List Char) :=
  let (word, rest) := splitWord text
  (literal? word).map fun node => (node, rest)

end Toml

end Document

end TypeAtlas
