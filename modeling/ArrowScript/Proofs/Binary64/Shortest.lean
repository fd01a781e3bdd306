import Mathlib.Data.Nat.Cast.Order.Field
import ArrowScript.Binary64.Shortest
import ArrowScript.Proofs.Binary64.Rounding

/-!
# The shortest decimal reads back

The decimal that is found for a finite word lies in the interval of the word, so it is read as
this word. For every word some length gives a hit: with eighteen digits the decimals follow one
another in steps that are no larger than the part of the interval below the value.
-/

namespace ArrowScript.Binary64

/-- The number that a decimal stands for. -/
def Decimal.value (decimal : Decimal) : ℚ := decimal.digits * 10 ^ decimal.power

/-! ## Leading digits -/

/-- A number is below the power of ten with as many zeros as it has digits. -/
theorem lt_digitCount (number : Nat) : number < 10 ^ digitCount number :=
  (Nat.length_toDigits_le_iff (by decide) Nat.length_toDigits_pos).mp le_rfl

/-- A positive number is not below the power of ten with one zero less than it has digits. -/
theorem digitCount_le {number : Nat} (positive : 0 < number) :
    10 ^ (digitCount number - 1) ≤ number := by
  by_cases single : digitCount number = 1
  · rw [single]
    exact positive
  · have some : 0 < digitCount number := Nat.length_toDigits_pos
    by_contra less
    have := (Nat.length_toDigits_le_iff (by decide) (by omega)).mpr (not_le.mp less)
    rw [← digitCount] at this
    omega

/-- The power of ten of the leading digit is not above a positive fraction. -/
theorem leadingPower_le {numerator denominator : Nat} (positive : 0 < numerator)
    (positive' : 0 < denominator) :
    (10 : ℚ) ^ leadingPower numerator denominator ≤ numerator / denominator := by
  have divides : (0 : ℚ) < denominator := by exact_mod_cast positive'
  let estimate : Int := (digitCount numerator : Int) - digitCount denominator
  let reached :=
    if estimate ≥ 0 then decide (numerator ≥ denominator * Nat.pow 10 estimate.toNat)
    else decide (numerator * Nat.pow 10 (-estimate).toNat ≥ denominator)
  have found : leadingPower numerator denominator =
      if reached then estimate else estimate - 1 := rfl
  rw [found]
  split
  · rename_i reaches
    have compared : denominator * 10 ^ estimate.toNat ≤ numerator * 10 ^ (-estimate).toNat := by
      simp only [reached, Nat.pow_eq] at reaches
      split at reaches
      · rw [Int.toNat_of_nonpos (by omega : -estimate ≤ 0), pow_zero, mul_one]
        exact of_decide_eq_true reaches
      · rw [Int.toNat_of_nonpos (by omega : estimate ≤ 0), pow_zero, mul_one]
        exact of_decide_eq_true reaches
    rw [zpow_eq_div (by norm_num), div_le_div_iff₀ (by positivity) divides, mul_comm]
    exact_mod_cast compared
  · have most := lt_digitCount denominator
    have least := digitCount_le positive
    have some : 0 < digitCount numerator := Nat.length_toDigits_pos
    rw [le_div_iff₀ divides]
    calc (10 : ℚ) ^ (estimate - 1) * denominator
        ≤ 10 ^ (estimate - 1) * 10 ^ (digitCount denominator : Int) := by
          gcongr
          exact_mod_cast most.le
      _ = 10 ^ (digitCount numerator - 1) := by
        rw [← zpow_add₀ (by norm_num), ← zpow_natCast]
        congr 1
        omega
      _ ≤ numerator := by exact_mod_cast least

/-! ## Hits -/

/-- A number lies in an interval. -/
def Interval.Contains (range : Interval) (value : ℚ) : Prop :=
  if range.closed then
    (range.below : ℚ) / range.denominator ≤ value ∧ value ≤ range.above / range.denominator
  else (range.below : ℚ) / range.denominator < value ∧ value < range.above / range.denominator

namespace Interval

variable {range : Interval} {power : Int}

/-- What is tested is a multiple of a power of ten, on a common denominator. -/
theorem holds_iff (positive : 0 < range.denominator) (count : Nat) :
    range.holds (count * (range.denominator * 10 ^ power.toNat)) (10 ^ (-power).toNat) = true ↔
      range.Contains (count * 10 ^ power) := by
  let unit := 10 ^ (-power).toNat
  let candidate := count * (range.denominator * 10 ^ power.toNat)
  have divides : (0 : ℚ) < range.denominator := by exact_mod_cast positive
  have scaled : (count : ℚ) * 10 ^ power = candidate / (unit * range.denominator) := by
    rw [zpow_eq_div (by norm_num)]
    simp only [candidate, unit]
    push_cast
    field_simp
  have shared (bound : Nat) : (bound : ℚ) / range.denominator =
      (bound * unit : Nat) / (unit * range.denominator) := by
    simp only [unit]
    push_cast
    field_simp
  have common : (0 : ℚ) < unit * range.denominator := by positivity
  change range.holds candidate unit = true ↔ _
  rw [Contains, holds, scaled, shared, shared]
  simp only [div_le_div_iff_of_pos_right common, div_lt_div_iff_of_pos_right common,
    Nat.cast_le, Nat.cast_lt]
  split <;> simp

/-- Of the multiple below the value and the one above it, one that lies in the interval is
found at a power of ten. -/
theorem atPower_eq (range : Interval) (power : Int) :
    let step := range.denominator * 10 ^ power.toNat
    let unit := 10 ^ (-power).toNat
    let lower := range.value * unit / step
    let nearer := 2 * (range.value * unit % step) > step ∨
      (2 * (range.value * unit % step) = step ∧ lower % 2 = 1)
    range.atPower power =
      if range.holds ((lower + 1) * step) unit && (nearer || !range.holds (lower * step) unit)
      then some ⟨lower + 1, power⟩
      else if range.holds (lower * step) unit then some ⟨lower, power⟩
      else none := by
  have up : (if power ≥ 0 then range.denominator * 10 ^ power.toNat else range.denominator) =
      range.denominator * 10 ^ power.toNat := by
    split
    · rfl
    · rw [Int.toNat_of_nonpos (by omega : power ≤ 0), pow_zero, mul_one]
  have down : (if power ≥ 0 then 1 else 10 ^ (-power).toNat) = 10 ^ (-power).toNat := by
    split
    · rw [Int.toNat_of_nonpos (by omega : -power ≤ 0), pow_zero]
    · rfl
  simp only [atPower, Nat.pow_eq, up, down]

/-- What is found at a power of ten lies in the interval. -/
theorem atPower_contains (positive : 0 < range.denominator) {decimal : Decimal}
    (found : range.atPower power = some decimal) : range.Contains decimal.value := by
  rw [atPower_eq] at found
  split at found
  · rename_i upper
    obtain rfl := Option.some.inj found
    exact (holds_iff positive _).mp (Bool.and_eq_true_iff.mp upper).1
  · split at found
    · rename_i lower
      obtain rfl := Option.some.inj found
      exact (holds_iff positive _).mp lower
    · exact nomatch found

/-- A decimal is found if the steps are no larger than the part of the interval below the
value. -/
theorem atPower_hits (positive : 0 < range.denominator) (above : range.value < range.above)
    (fine : (range.below : ℚ) / range.denominator + 10 ^ power ≤
      range.value / range.denominator) :
    (range.atPower power).isSome := by
  have divides : (0 : ℚ) < range.denominator := by exact_mod_cast positive
  let step := range.denominator * 10 ^ power.toNat
  let unit := 10 ^ (-power).toNat
  let lower := range.value * unit / step
  have steps : (0 : ℚ) < 10 ^ power := by positivity
  have ratio : (range.value : ℚ) / range.denominator =
      (range.value * unit : Nat) / (step : Nat) * 10 ^ power := by
    rw [zpow_eq_div (by norm_num)]
    simp only [step, unit]
    push_cast
    field_simp
  have floor : (lower : ℚ) ≤ (range.value * unit : Nat) / (step : Nat) := Nat.cast_div_le
  have ceiling : ((range.value * unit : Nat) : ℚ) / (step : Nat) < lower + 1 := by
    have positive' : 0 < step := by positivity
    have next := Nat.lt_mul_div_succ (range.value * unit) positive'
    rw [div_lt_iff₀' (by exact_mod_cast positive')]
    exact_mod_cast next
  have contained : range.Contains (lower * 10 ^ power) := by
    have least : (range.below : ℚ) / range.denominator < lower * 10 ^ power := by
      have := (mul_lt_mul_iff_left₀ steps).mpr ceiling
      linarith
    have most : lower * 10 ^ power < (range.above : ℚ) / range.denominator := by
      have := (mul_le_mul_iff_left₀ steps).mpr floor
      have : (range.value : ℚ) / range.denominator < range.above / range.denominator := by
        rw [div_lt_div_iff_of_pos_right divides]
        exact_mod_cast above
      linarith
    rw [Contains]
    split
    · exact ⟨least.le, most.le⟩
    · exact ⟨least, most⟩
  have holds := (holds_iff positive lower).mpr contained
  rw [atPower_eq, if_pos holds]
  split <;> rfl

/-- What a search finds lies in the interval, if one of the lengths gives a hit. -/
theorem search_contains (positive : 0 < range.denominator) (leading : Int)
    (remaining length last : Nat) (within : length ≤ last) (among : last < length + remaining)
    (hits : (range.atPower (leading - last)).isSome) :
    range.Contains (range.search leading remaining length).value := by
  induction remaining generalizing length with
  | zero => omega
  | succ remaining inductionHypothesis =>
    rw [search]
    split
    · rename_i found
      exact atPower_contains positive found
    · rename_i missed
      have : length ≠ last := by
        rintro rfl
        rw [missed] at hits
        exact absurd hits (by simp)
      exact inductionHypothesis (length + 1) (by omega) (by omega)

end Interval

/-! ## The interval of a word -/

variable {number : Binary64}

/-- How far the interval reaches below the value, counted in the last place. Below a power of
two it reaches half as far. -/
def reach (number : Binary64) : ℚ :=
  if number.fraction = 0 ∧ 1 < number.field then 1 / 4 else 1 / 2

/-- The interval counts quarters of the last place, on one denominator. -/
theorem interval_eq (number : Binary64) :
    let quarters := 4 * number.significand
    let lower := if number.fraction = 0 ∧ number.field > 1 then quarters - 1 else quarters - 2
    let raised := 2 ^ (number.exponent - 2).toNat
    number.interval = ⟨quarters * raised, lower * raised, (quarters + 2) * raised,
      2 ^ (-(number.exponent - 2)).toNat, number.significand % 2 == 0⟩ := by
  by_cases coarse : number.exponent - 2 ≥ 0
  · have whole : (-(number.exponent - 2)).toNat = 0 := Int.toNat_of_nonpos (by omega)
    simp only [interval, Nat.pow_eq, if_pos coarse, whole, pow_zero]
  · have whole : (number.exponent - 2).toNat = 0 := Int.toNat_of_nonpos (by omega)
    simp only [interval, Nat.pow_eq, if_neg coarse, whole, pow_zero, mul_one]

/-- The value, and the ends of the interval of a word that is not zero. -/
theorem interval_spec (positive : 0 < number.significand) :
    let range := number.interval
    let place := (2 : ℚ) ^ number.exponent
    0 < range.denominator ∧ 0 < range.value ∧ range.value < range.above ∧
      (range.value : ℚ) / range.denominator = number.significand * place ∧
      (range.below : ℚ) / range.denominator = (number.significand - number.reach) * place ∧
      (range.above : ℚ) / range.denominator = (number.significand + 1 / 2) * place := by
  have quarter (count : Nat) : ((count * 2 ^ (number.exponent - 2).toNat : Nat) : ℚ) /
      (2 ^ (-(number.exponent - 2)).toNat : Nat) = count / 4 * 2 ^ number.exponent := by
    have places := zpow_eq_div (by norm_num : (2 : ℚ) ≠ 0) (number.exponent - 2)
    push_cast
    rw [mul_div_assoc, ← places, zpow_sub₀ two_ne_zero]
    norm_num
    ring
  rw [interval_eq]
  refine ⟨by positivity, by positivity, by simp only; gcongr; omega, ?_, ?_, ?_⟩
  · rw [quarter]
    push_cast
    ring
  · rw [quarter, reach]
    split
    · rw [Nat.cast_sub (by omega)]
      push_cast
      ring
    · rw [Nat.cast_sub (by omega)]
      push_cast
      ring
  · rw [quarter]
    push_cast
    ring

/-- A word covers its interval. -/
theorem covers_of_contains (positive : 0 < number.significand) {value : ℚ}
    (inside : number.interval.Contains value) : number.Covers value := by
  obtain ⟨-, -, -, -, below, above⟩ := interval_spec positive
  have place : (0 : ℚ) < 2 ^ number.exponent := by positivity
  have reach : number.reach ≤ 1 / 2 := by
    rw [Binary64.reach]
    split <;> norm_num
  have bounds : number.significand - number.reach ≤ value / 2 ^ number.exponent ∧
      value / 2 ^ number.exponent ≤ number.significand + 1 / 2 := by
    rw [le_div_iff₀ place, div_le_iff₀ place, ← below, ← above]
    rw [Interval.Contains] at inside
    split at inside
    · exact inside
    · exact ⟨inside.1.le, inside.2.le⟩
  refine ⟨⟨abs_le.mpr ⟨by linarith, by linarith⟩, fun half => ?_⟩, fun fractionless normal => ?_⟩
  · by_contra odd
    have opened : number.interval.closed = false := by
      rw [interval_eq]
      exact beq_false_of_ne odd
    rw [Interval.Contains, opened, if_neg Bool.false_ne_true, below, above,
      ← lt_div_iff₀ place, ← div_lt_iff₀ place] at inside
    rcases abs_eq (by norm_num) |>.mp half with upper | lower
    · linarith
    · linarith
  · rw [Binary64.reach, if_pos ⟨fractionless, normal⟩] at bounds
    exact bounds.1

/-- A word covers its shortest decimal. -/
theorem covers_shortest (number : Binary64) : number.Covers number.shortest.value := by
  by_cases zero : number.significand = 0
  · have subnormal : number.field = 0 := by
      by_contra normal
      rw [significand, if_neg normal, Nat.pow_eq] at zero
      omega
    have value : number.shortest.value = 0 := by
      rw [shortest, if_pos zero, Decimal.value, Nat.cast_zero, zero_mul]
    rw [value]
    refine ⟨?_, fun _ normal => by omega⟩
    rw [zero, zero_div]
    exact ⟨by norm_num, fun _ => rfl⟩
  · have positive := Nat.pos_of_ne_zero zero
    obtain ⟨divides, something, above, value, below, -⟩ := interval_spec positive
    let leading := leadingPower number.interval.value number.interval.denominator
    have place : (0 : ℚ) < 2 ^ number.exponent := by positivity
    have fine : (10 : ℚ) ^ (leading - 17) ≤ number.reach * 2 ^ number.exponent := by
      have most : (number.significand : ℚ) ≤ 2 ^ 53 := by
        exact_mod_cast number.significand_lt.le
      have quarter : 1 / 4 ≤ number.reach := by
        rw [reach]
        split <;> norm_num
      calc (10 : ℚ) ^ (leading - 17) = 10 ^ leading / 10 ^ 17 := by
            rw [zpow_sub₀ (by norm_num)]
            norm_cast
        _ ≤ number.significand * 2 ^ number.exponent / 10 ^ 17 := by
            rw [← value]
            gcongr
            exact leadingPower_le something divides
        _ ≤ 2 ^ 53 * 2 ^ number.exponent / 10 ^ 17 := by gcongr
        _ ≤ 1 / 4 * 2 ^ number.exponent := by linarith
        _ ≤ number.reach * 2 ^ number.exponent := by gcongr
    have hits : (number.interval.atPower (leading - (17 : Nat))).isSome := by
      refine Interval.atPower_hits divides above ?_
      rw [value, below]
      push_cast
      linarith
    rw [shortest, if_neg zero]
    exact covers_of_contains positive
      (Interval.search_contains divides leading 18 0 17 (by decide) (by decide) hits)

/-- Reading the shortest decimal of a finite word gives the word without its sign. -/
theorem ofDecimal_shortest (finite : number.finite = true) :
    ofDecimal number.shortest.digits number.shortest.power = number.magnitude :=
  ofDecimal_eq finite _ _ number.covers_shortest

end ArrowScript.Binary64
