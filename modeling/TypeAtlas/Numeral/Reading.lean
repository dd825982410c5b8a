import TypeAtlas.Numeral.Binary
import TypeAtlas.Text.LetterCase

/-!
# Reading numerals

Integers are an optional sign and decimal digits, read from the left, so that
of an overflow and a foreign character the earlier one is reported.  Decimals
may have a point and an exponent, or be one of the words for infinity and NaN.
-/

namespace TypeAtlas

namespace Numeral

/-- Why a text is not a number of the wanted kind. -/
inductive Fault where
  | emptyInteger
  | invalidDigit
  | tooLarge
  | tooSmall
  | emptyDecimal
  | invalidDecimal
  deriving Repr, BEq, DecidableEq

def Fault.message : Fault → String
  | .emptyInteger => "cannot parse integer from empty string"
  | .invalidDigit => "invalid digit found in string"
  | .tooLarge => "number too large to fit in target type"
  | .tooSmall => "number too small to fit in target type"
  | .emptyDecimal => "cannot parse float from empty string"
  | .invalidDecimal => "invalid float literal"

def digitValue (digit : Char) : Nat :=
  digit.toNat - '0'.toNat

/-- The number that a sequence of decimal digits denotes. -/
def digitsValue (digits : List Char) : Nat :=
  digits.foldl (fun value digit => 10 * value + digitValue digit) 0

/-- Appends digits to a magnitude one by one, refusing the first character that
is no digit and the first digit that takes the magnitude above its limit. -/
def readMagnitude (limit : Nat) (overflow : Fault) :
    (soFar : Nat) → List Char → Except Fault Nat
  | soFar, [] => .ok soFar
  | soFar, digit :: rest =>
    if !digit.isDigit then .error .invalidDigit
    else
      let next := 10 * soFar + digitValue digit
      if limit < next then .error overflow
      else readMagnitude limit overflow next rest

/-- Reads a signed integer of a width in bits.  A lone sign is an invalid
digit. -/
def readInteger (width : Nat) (text : String) : Except Fault Int :=
  match text.toList with
  | [] => .error .emptyInteger
  | ['+'] => .error .invalidDigit
  | ['-'] => .error .invalidDigit
  | '-' :: digits =>
    (fun magnitude : Nat => -(magnitude : Int)) <$>
      readMagnitude (Nat.pow 2 (width - 1)) .tooSmall 0 digits
  | '+' :: digits =>
    (fun magnitude : Nat => (magnitude : Int)) <$>
      readMagnitude (Nat.pow 2 (width - 1) - 1) .tooLarge 0 digits
  | digits =>
    (fun magnitude : Nat => (magnitude : Int)) <$>
      readMagnitude (Nat.pow 2 (width - 1) - 1) .tooLarge 0 digits

/-- An optional sign: whether it was a minus, and the rest. -/
def readSign : List Char → Bool × List Char
  | '-' :: rest => (true, rest)
  | '+' :: rest => (false, rest)
  | rest => (false, rest)

/-- An exponent, with its letter, that ends the text; none is zero. -/
def readExponent : List Char → Option Int
  | [] => some 0
  | letter :: rest =>
    if letter == 'e' || letter == 'E' then
      let (negative, digits) := readSign rest
      if digits.isEmpty || !digits.all Char.isDigit then none
      else
        let value : Int := digitsValue digits
        some (if negative then -value else value)
    else
      none

/-- Reads an unsigned decimal as `digits * 10 ^ scale`.  At least one digit must
stand before or after the point. -/
def readDecimal (text : List Char) : Option (Nat × Int) :=
  let whole := text.takeWhile Char.isDigit
  let rest := text.dropWhile Char.isDigit
  let (fraction, rest) :=
    match rest with
    | '.' :: rest => (rest.takeWhile Char.isDigit, rest.dropWhile Char.isDigit)
    | rest => ([], rest)
  if whole.isEmpty && fraction.isEmpty then none
  else
    (readExponent rest).map fun exponent =>
      (digitsValue (whole ++ fraction), exponent - fraction.length)

/-- Reads a floating-point number of a layout as its bits. -/
def readBinary (layout : BinaryLayout) (text : String) : Except Fault Nat :=
  if text.isEmpty then .error .emptyDecimal
  else
    let (negative, rest) := readSign text.toList
    let sign := if negative then layout.signBit else 0
    let word := Text.lowerAscii (String.ofList rest)
    if word == "nan" then .ok (sign + layout.quietNaN)
    else if word == "inf" || word == "infinity" then
      .ok (sign + layout.infinity)
    else
      match readDecimal rest with
      | some (digits, scale) =>
        .ok (sign + layout.nearestDecimal digits scale)
      | none => .error .invalidDecimal

end Numeral

end TypeAtlas
