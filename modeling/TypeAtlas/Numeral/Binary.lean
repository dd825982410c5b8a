/-!
# Binary floating-point numbers

Floating-point numbers are kept as their interchange bits, so that two of them
are equal exactly when their bits are.  Rounding works on exact fractions of
natural numbers: a magnitude is read as the nearest representable one, a tie
going to the even significand, and a magnitude beyond the largest finite one is
infinite.
-/

namespace TypeAtlas

/-- The widths of the two magnitude fields of a binary interchange layout. -/
structure BinaryLayout where
  fractionBits : Nat
  exponentBits : Nat
  deriving Repr, DecidableEq

namespace BinaryLayout

def single : BinaryLayout := ⟨23, 8⟩

def double : BinaryLayout := ⟨52, 11⟩

/-- The amount by which stored exponents exceed true ones. -/
def bias (layout : BinaryLayout) : Nat :=
  Nat.pow 2 (layout.exponentBits - 1) - 1

/-- The magnitude bits of infinity: the largest exponent and no fraction. -/
def infinity (layout : BinaryLayout) : Nat :=
  (Nat.pow 2 layout.exponentBits - 1) * Nat.pow 2 layout.fractionBits

def quietNaN (layout : BinaryLayout) : Nat :=
  layout.infinity + Nat.pow 2 (layout.fractionBits - 1)

def signBit (layout : BinaryLayout) : Nat :=
  Nat.pow 2 (layout.fractionBits + layout.exponentBits)

end BinaryLayout

/-- The integer nearest to a quotient, ties going to the even one. -/
def roundQuotient (numerator denominator : Nat) : Nat :=
  let quotient := numerator / denominator
  let twice := 2 * (numerator % denominator)
  if twice < denominator then quotient
  else if denominator < twice then quotient + 1
  else quotient + quotient % 2

/-- The exponent of the leading bit of a positive fraction: the largest `e` with
`2 ^ e` at most `numerator / denominator`. -/
def leadingExponent (numerator denominator : Nat) : Int :=
  let guess : Int := (numerator.log2 : Int) - denominator.log2
  let fits :=
    if 0 ≤ guess then denominator * Nat.pow 2 guess.toNat ≤ numerator
    else denominator ≤ numerator * Nat.pow 2 (-guess).toNat
  if fits then guess else guess - 1

namespace BinaryLayout

/-- The magnitude bits nearest to a fraction.  The significand is counted in
units of its last place; a significand that rounds up to the next power of two
carries into the exponent field by itself. -/
def nearest (layout : BinaryLayout) (numerator denominator : Nat) : Nat :=
  if numerator = 0 then
    0
  else
    let smallest : Int := 1 - layout.bias
    let exponent := max (leadingExponent numerator denominator) smallest
    let unit := exponent - layout.fractionBits
    let significand :=
      if 0 ≤ unit then
        roundQuotient numerator (denominator * Nat.pow 2 unit.toNat)
      else
        roundQuotient (numerator * Nat.pow 2 (-unit).toNat) denominator
    let bits :=
      (exponent - smallest).toNat * Nat.pow 2 layout.fractionBits +
        significand
    min bits layout.infinity

/-- The magnitude bits nearest to `digits * 10 ^ scale`.  A scale so far out
that the result is certainly zero or infinite is not spelled out. -/
def nearestDecimal (layout : BinaryLayout) (digits : Nat) (scale : Int) :
    Nat :=
  if digits = 0 then
    0
  else
    let places : Int := (Nat.toDigits 10 digits).length + scale
    if places > 400 then layout.infinity
    else if places < -400 then 0
    else if 0 ≤ scale then layout.nearest (digits * Nat.pow 10 scale.toNat) 1
    else layout.nearest digits (Nat.pow 10 (-scale).toNat)

end BinaryLayout

/-- A 64-bit floating-point number. -/
structure Binary64 where
  bits : UInt64
  deriving Repr, DecidableEq, Inhabited

/-- A 32-bit floating-point number. -/
structure Binary32 where
  bits : UInt32
  deriving Repr, DecidableEq, Inhabited

namespace Binary64

def zero : Binary64 := ⟨0⟩

def isNegative (number : Binary64) : Bool :=
  BinaryLayout.double.signBit ≤ number.bits.toNat

def magnitude (number : Binary64) : Nat :=
  number.bits.toNat % BinaryLayout.double.signBit

def isNaN (number : Binary64) : Bool :=
  BinaryLayout.double.infinity < number.magnitude

def ofInt (value : Int) : Binary64 :=
  let magnitude := BinaryLayout.double.nearest value.natAbs 1
  let sign := if value < 0 then BinaryLayout.double.signBit else 0
  ⟨UInt64.ofNat (sign + magnitude)⟩

/-- The magnitude of a finite number without its fraction: the significand moved
to the place of its unit, and the bits below one dropped. -/
def wholePart (number : Binary64) : Nat :=
  let layout := BinaryLayout.double
  let field := number.magnitude / Nat.pow 2 layout.fractionBits
  let fraction := number.magnitude % Nat.pow 2 layout.fractionBits
  let significand :=
    if field = 0 then fraction
    else fraction + Nat.pow 2 layout.fractionBits
  let offset := layout.bias + layout.fractionBits
  if offset ≤ max field 1 then
    significand * Nat.pow 2 (max field 1 - offset)
  else
    significand / Nat.pow 2 (offset - max field 1)

/-- The 64-bit integer nearest toward zero.  A number beyond the range becomes
the end of the range it passed, and NaN becomes zero. -/
def toInt64 (number : Binary64) : Int64 :=
  if number.isNaN then
    0
  else
    let limit := Nat.pow 2 63
    if number.isNegative then
      Int64.ofInt (-(min number.wholePart limit : Nat))
    else
      Int64.ofNat (min number.wholePart (limit - 1))

end Binary64

namespace Binary32

def isNaN (number : Binary32) : Bool :=
  BinaryLayout.single.infinity <
    number.bits.toNat % BinaryLayout.single.signBit

end Binary32

end TypeAtlas
