import TypeAtlas.Numeral.Binary

/-!
# Hexadecimal

Digits in base sixteen, read in either case and written in small letters with
a fixed width, and the bits of floating-point numbers in that form.
-/

namespace TypeAtlas

namespace Numeral

def hexDigit? (digit : Char) : Option Nat :=
  if digit.isDigit then some (digit.toNat - '0'.toNat)
  else if 'a' ≤ digit && digit ≤ 'f' then some (digit.toNat - 'a'.toNat + 10)
  else if 'A' ≤ digit && digit ≤ 'F' then some (digit.toNat - 'A'.toNat + 10)
  else none

def hexValue? (digits : List Char) : Option Nat :=
  digits.foldlM (fun value digit => (hexDigit? digit).map (16 * value + ·)) 0

def hexDigit (value : Nat) : Char :=
  if value < 10 then Char.ofNat ('0'.toNat + value)
  else Char.ofNat ('a'.toNat + (value - 10))

/-- A number in hexadecimal with at least `width` digits. -/
def hexadecimal (width number : Nat) : List Char :=
  (List.range width).reverse.map fun place =>
    hexDigit (number / Nat.pow 16 place % 16)

end Numeral

/-- The bits of a number in hexadecimal, or the word for NaN. -/
def Binary64.hexadecimal (number : Binary64) : String :=
  if number.isNaN then "nan"
  else
    "0x" ++ String.ofList
      (Numeral.hexadecimal 16 number.bits.toNat)

/-- The bits of a short number in hexadecimal, or the word for NaN. -/
def Binary32.hexadecimal (number : Binary32) : String :=
  if number.isNaN then "nan"
  else
    "0x" ++ String.ofList
      (Numeral.hexadecimal 8 number.bits.toNat)

end TypeAtlas
