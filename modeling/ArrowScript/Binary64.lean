/-!
# Binary floating-point literals

A literal with a fractional part denotes a number of the 64-bit binary interchange
format. The datum is its word, so two literals are equal exactly when their words
are, and every operation below is integer arithmetic on the fields of that word.

Reading rounds a decimal fraction to the nearest word and sends a tie to the even
significand. A word is whole when its value is an integer; infinities and words
that are not numbers are never whole.
-/

namespace ArrowScript

/-- A number of the 64-bit binary format, given by its word. -/
structure Binary64 where
  bits : UInt64
  deriving DecidableEq, Repr, Inhabited

namespace Binary64

/-- The eleven exponent bits. -/
def field (number : Binary64) : Nat := number.bits.toNat / Nat.pow 2 52 % Nat.pow 2 11

/-- The fifty-two bits after the leading one of a normal number. -/
def fraction (number : Binary64) : Nat := number.bits.toNat % Nat.pow 2 52

/-- The sign bit, set also for a negative zero. -/
def negative (number : Binary64) : Bool := number.bits.toNat / Nat.pow 2 63 == 1

/-- Infinities and non-numbers fill the exponent field with ones. -/
def finite (number : Binary64) : Bool := number.field != 2047

/-- The integer whose product with two to the `exponent` is the magnitude. A
normal number has its leading one put back; a subnormal number has none. -/
def significand (number : Binary64) : Nat :=
  if number.field = 0 then number.fraction else Nat.pow 2 52 + number.fraction

/-- The power of two that scales the significand. Subnormal numbers share the
scale of the smallest normal ones. -/
def exponent (number : Binary64) : Int := (max number.field 1 : Int) - 1075

/-- Tells whether a finite value has no fractional part: either it is scaled up,
or the scaling divides the significand. -/
def isWhole (number : Binary64) : Bool :=
  number.finite && (number.exponent ≥ 0 ||
    number.significand % Nat.pow 2 (-number.exponent).toNat == 0)

/-- The word of positive infinity. -/
def infinity : Binary64 := ⟨.ofNat (2047 * Nat.pow 2 52)⟩

/-- The word of the quiet non-number. -/
def notANumber : Binary64 := ⟨.ofNat (4095 * Nat.pow 2 51)⟩

/-- The number with the other sign. -/
def negate (number : Binary64) : Binary64 := ⟨number.bits ^^^ ((1 : UInt64) <<< 63)⟩

/-- The quotient rounded to the nearest integer, a tie to the even one. -/
def roundedQuotient (numerator denominator : Nat) : Nat :=
  let quotient := numerator / denominator
  let twice := 2 * (numerator % denominator)
  if twice > denominator ∨ (twice = denominator ∧ quotient % 2 = 1) then quotient + 1 else quotient

/-- The quotient of `numerator / denominator` by two to the `scale`, as a fraction
of natural numbers. -/
def scaledFraction (numerator denominator : Nat) (scale : Int) : Nat × Nat :=
  if scale ≥ 0 then (numerator, denominator * Nat.pow 2 scale.toNat)
  else (numerator * Nat.pow 2 (-scale).toNat, denominator)

/-- The scale at which the quotient's integer part has fifty-three bits, or the
scale of the subnormal numbers when that one is larger. The difference of the two
logarithms leaves fifty-two or fifty-three bits, and one test tells which. -/
def scaleOf (numerator denominator : Nat) : Int :=
  let estimate : Int := (numerator.log2 : Int) - (denominator.log2 : Int) - 52
  let (top, bottom) := scaledFraction numerator denominator estimate
  max (if top / bottom < Nat.pow 2 52 then estimate - 1 else estimate) (-1074)

/-- The word nearest to a non-negative fraction. The rounded significand is added
to the scale's place in the exponent field, so a significand that rounds up to the
next power of two carries into the field, as it should. Values beyond the largest
finite word become infinite. -/
def ofFraction (numerator denominator : Nat) : Binary64 :=
  if numerator = 0 then ⟨0⟩ else
    let scale := scaleOf numerator denominator
    let (top, bottom) := scaledFraction numerator denominator scale
    let word := (scale + 1074).toNat * Nat.pow 2 52 + roundedQuotient top bottom
    if word ≥ 2047 * Nat.pow 2 52 then infinity else ⟨UInt64.ofNat word⟩

/-- The word nearest to `digits` times ten to the `power`. -/
def ofDecimal (digits : Nat) (power : Int) : Binary64 :=
  if power ≥ 0 then ofFraction (digits * Nat.pow 10 power.toNat) 1
  else ofFraction digits (Nat.pow 10 (-power).toNat)

end Binary64

end ArrowScript
