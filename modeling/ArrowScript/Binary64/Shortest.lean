import ArrowScript.Binary64

/-!
# The shortest decimal of a binary number

A finite word is written with the fewest decimal digits that read back as the same
word. The numbers that read back form an interval around the value: it reaches half
way to both neighbouring words, and it contains its ends exactly when the
significand is even, since a tie goes to the even significand.

For one digit, two digits, and so on, the two decimals next to the value are tested
against that interval in integer arithmetic. The first length with a hit wins; of
two hits the nearer is taken, and of two equally near ones the even one. Seventeen
digits always suffice.

Powers of ten from the fourth negative one up to below the sixteenth are written in
positional notation with at least one digit after the point, all others with a
signed exponent of at least two digits.
-/

namespace ArrowScript.Binary64

/-- A decimal number: `digits` times ten to the `power`. -/
structure Decimal where
  digits : Nat
  power : Int
  deriving DecidableEq, Repr

/-- The value and its interval on one common denominator: every member is a
numerator over `denominator`. -/
structure Interval where
  value : Nat
  below : Nat
  above : Nat
  denominator : Nat
  closed : Bool
  deriving Repr

/-- The numbers that read back as the given word. Everything is counted in quarters
of the last place, because below a power of two the neighbouring word is only half
a place away. -/
def interval (number : Binary64) : Interval :=
  let quarters := 4 * number.significand
  let lower := if number.fraction = 0 ∧ number.field > 1 then quarters - 1 else quarters - 2
  let scale := number.exponent - 2
  let raise (count : Nat) : Nat := if scale ≥ 0 then count * Nat.pow 2 scale.toNat else count
  { value := raise quarters
    below := raise lower
    above := raise (quarters + 2)
    denominator := if scale ≥ 0 then 1 else Nat.pow 2 (-scale).toNat
    closed := number.significand % 2 == 0 }

/-- The number of decimal digits of a natural number, one for zero. -/
def digitCount (number : Nat) : Nat := (Nat.toDigits 10 number).length

/-- The power of ten of the leading digit of a positive fraction. The difference of
the two digit counts is that power or one more. -/
def leadingPower (numerator denominator : Nat) : Int :=
  let estimate : Int := (digitCount numerator : Int) - (digitCount denominator : Int)
  let reached :=
    if estimate ≥ 0 then decide (numerator ≥ denominator * Nat.pow 10 estimate.toNat)
    else decide (numerator * Nat.pow 10 (-estimate).toNat ≥ denominator)
  if reached then estimate else estimate - 1

/-- Tells whether a decimal, scaled to the interval's denominator times `unit`, lies
in the interval scaled by the same `unit`. -/
def Interval.holds (range : Interval) (candidate unit : Nat) : Bool :=
  if range.closed then range.below * unit ≤ candidate && candidate ≤ range.above * unit
  else range.below * unit < candidate && candidate < range.above * unit

/-- The nearest decimal of the given power that reads back, if the power is fine
enough for one. -/
def Interval.atPower (range : Interval) (power : Int) : Option Decimal :=
  let step := if power ≥ 0 then range.denominator * Nat.pow 10 power.toNat else range.denominator
  let unit := if power ≥ 0 then 1 else Nat.pow 10 (-power).toNat
  let exact := range.value * unit
  let lower := exact / step
  let rest := exact % step
  let takesUpper := 2 * rest > step ∨ (2 * rest = step ∧ lower % 2 = 1)
  let lowerHolds := range.holds (lower * step) unit
  let upperHolds := range.holds ((lower + 1) * step) unit
  if upperHolds && (takesUpper || !lowerHolds) then some ⟨lower + 1, power⟩
  else if lowerHolds then some ⟨lower, power⟩
  else none

/-- The first hit among the powers that leave one digit, two digits, and so on. -/
def Interval.search (range : Interval) (leading : Int) : Nat → Nat → Decimal
  | 0, _ => ⟨0, 0⟩
  | remaining + 1, length =>
    match range.atPower (leading - length) with
    | some decimal => decimal
    | none => range.search leading remaining (length + 1)

/-- The decimal with the fewest digits that reads back as the given finite word. -/
def shortest (number : Binary64) : Decimal :=
  if number.significand = 0 then ⟨0, 0⟩ else
    let range := number.interval
    range.search (leadingPower range.value range.denominator) 18 0

/-- Digits without the zeros at their end. -/
def significantDigits (digits : Nat) : List Char :=
  ((Nat.toDigits 10 digits).reverse.dropWhile (· == '0')).reverse

/-- Positional notation of digits whose first one stands at the given power of ten.
A number without a fractional part still shows the zero after its point. -/
def positional (digits : List Char) (leading : Int) : List Char :=
  if leading < 0 then
    '0' :: '.' :: List.replicate (-leading - 1).toNat '0' ++ digits
  else
    let wholeLength := leading.toNat + 1
    let whole := digits.take wholeLength
    let decimals := digits.drop wholeLength
    whole ++ List.replicate (wholeLength - whole.length) '0' ++
      '.' :: (if decimals.isEmpty then ['0'] else decimals)

/-- Notation with an exponent. The exponent always shows its sign and at least two
digits; a single digit stands without a point. -/
def exponential (digits : List Char) (leading : Int) : List Char :=
  let mantissa := match digits with
    | first :: second :: rest => first :: '.' :: second :: rest
    | _ => digits
  let power := Nat.toDigits 10 leading.natAbs
  mantissa ++ 'e' :: (if leading < 0 then '-' else '+') ::
    (if power.length < 2 then '0' :: power else power)

/-- The text of the magnitude of a finite word. -/
def magnitudeText (number : Binary64) : List Char :=
  let decimal := number.shortest
  let leading := decimal.power + (digitCount decimal.digits : Int) - 1
  match significantDigits decimal.digits with
  | [] => ['0', '.', '0']
  | digits => if -4 ≤ leading ∧ leading < 16 then positional digits leading
    else exponential digits leading

/-- The text of a word: the shortest decimal, or the name of a special value. -/
def text (number : Binary64) : String :=
  let sign := if number.negative then "-" else ""
  if number.finite then sign ++ String.ofList number.magnitudeText
  else if number.fraction = 0 then sign ++ "inf"
  else "nan"

end ArrowScript.Binary64
