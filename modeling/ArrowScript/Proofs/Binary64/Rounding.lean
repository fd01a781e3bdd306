import Mathlib.Algebra.Order.Field.Power
import Mathlib.Data.Rat.Cast.Order
import Mathlib.Tactic.FieldSimp
import Mathlib.Tactic.GCongr
import Mathlib.Tactic.Linarith
import Mathlib.Tactic.NormNum
import Mathlib.Tactic.Positivity
import Mathlib.Tactic.Ring
import ArrowScript.Binary64

/-!
# Reading rounds to the nearest word

The words of the finite numbers without a sign are numbered by their size: a word is the
significand, and two to the fifty-second for every step of the exponent beyond the least one.
A fraction that is nearer to the significand of a word than half a place, or half a place away
from an even one, is read as that word. At a power of two the word below is only half a place
away, so a fraction below it may be read at the finer scale; there it has to be nearer than a
quarter of a place.
-/

namespace ArrowScript.Binary64

/-! ## Words without a sign -/

/-- The word of a number without its sign. -/
def place (number : Binary64) : Nat := number.bits.toNat % 2 ^ 63

/-- The number without its sign. -/
def magnitude (number : Binary64) : Binary64 := ⟨.ofNat number.place⟩

variable {number : Binary64}

/-- The fraction has fifty-two bits. -/
theorem fraction_lt (number : Binary64) : number.fraction < 2 ^ 52 :=
  Nat.mod_lt _ (by decide)

/-- A significand has at most fifty-three bits. -/
theorem significand_lt (number : Binary64) : number.significand < 2 ^ 53 := by
  have := number.fraction_lt
  simp only [significand, Nat.pow_eq]
  split <;> omega

/-- No exponent is below that of the subnormal numbers. -/
theorem le_exponent (number : Binary64) : -1074 ≤ number.exponent := by
  simp only [exponent]
  omega

/-- Only subnormal numbers, which have the least exponent, lack the leading bit. -/
theorem le_significand (normal : -1074 < number.exponent) : 2 ^ 52 ≤ number.significand := by
  simp only [exponent] at normal
  simp only [significand, Nat.pow_eq]
  split <;> omega

/-- The word without its sign has the exponent bits before the fraction. -/
theorem place_parts (number : Binary64) :
    number.place = number.field * 2 ^ 52 + number.fraction := by
  simp only [place, field, fraction, Nat.pow_eq]
  omega

/-- The word without its sign counts the steps of the exponent and adds the significand. -/
theorem place_eq (number : Binary64) :
    (number.place : Int) = (number.exponent + 1074) * 2 ^ 52 + number.significand := by
  have parts := number.place_parts
  simp only [exponent, significand, Nat.pow_eq]
  by_cases subnormal : number.field = 0
  · rw [if_pos subnormal]
    omega
  · rw [if_neg subnormal]
    omega

/-- The words of finite numbers are below that of infinity. -/
theorem place_lt (finite : number.finite = true) : number.place < 2047 * 2 ^ 52 := by
  simp only [Binary64.finite, field, Nat.pow_eq, bne_iff_ne] at finite
  simp only [place]
  omega

/-! ## The nearest natural number -/

/-- A natural number is nearest to a fraction. Of two that are equally near it is the even
one. -/
structure Nearest (value : ℚ) (rounded : Nat) : Prop where
  near : |value - rounded| ≤ 1 / 2
  even : |value - rounded| = 1 / 2 → rounded % 2 = 0

/-- Only one natural number is nearest. -/
theorem Nearest.unique {value : ℚ} {one other : Nat} (first : Nearest value one)
    (second : Nearest value other) : one = other := by
  have near := abs_le.mp first.near
  have near' := abs_le.mp second.near
  by_contra apart
  wlog less : one < other generalizing one other
  · exact this second first near' near (Ne.symm apart) (by omega)
  have step : (one : ℚ) + 1 ≤ other := by exact_mod_cast less
  have half : |value - one| = 1 / 2 := by
    rw [abs_of_nonneg (by linarith)]
    linarith
  have half' : |value - other| = 1 / 2 := by
    rw [abs_of_nonpos (by linarith)]
    linarith
  have next : (other : ℚ) = (one + 1 : Nat) := by
    push_cast
    linarith
  have even := first.even half
  have even' := second.even half'
  have : other = one + 1 := by exact_mod_cast next
  omega

/-- The rounded quotient is nearest to the fraction. -/
theorem roundedQuotient_nearest (top : Nat) {bottom : Nat} (positive : 0 < bottom) :
    Nearest (top / bottom) (roundedQuotient top bottom) := by
  have positive' : (0 : ℚ) < bottom := by exact_mod_cast positive
  let quotient := top / bottom
  let rest := top % bottom
  let part : ℚ := rest / bottom
  have value : (top : ℚ) / bottom = quotient + part := by
    rw [div_eq_iff positive'.ne', add_mul, div_mul_cancel₀ _ positive'.ne']
    exact_mod_cast (Nat.div_add_mod' top bottom).symm
  have least : 0 ≤ part := by positivity
  have most : part ≤ 1 := by
    rw [div_le_one positive']
    exact_mod_cast (Nat.mod_lt top positive).le
  have atMost : part ≤ 1 / 2 ↔ 2 * rest ≤ bottom := by
    rw [div_le_div_iff₀ positive' two_pos, one_mul, mul_comm]
    exact_mod_cast Iff.rfl
  have atLeast : 1 / 2 ≤ part ↔ bottom ≤ 2 * rest := by
    rw [div_le_div_iff₀ two_pos positive', one_mul, mul_comm]
    exact_mod_cast Iff.rfl
  rw [value, roundedQuotient]
  split
  · rename_i upper
    have large : 1 / 2 ≤ part := atLeast.mpr (by omega)
    have size : |quotient + part - (quotient + 1 : Nat)| = 1 - part := by
      push_cast
      rw [abs_of_nonpos (by linarith)]
      ring
    constructor
    · rw [size]
      linarith
    · intro half
      have := atMost.mp (by linarith)
      omega
  · rename_i lower
    have small : part ≤ 1 / 2 := atMost.mpr (by omega)
    have size : |quotient + part - quotient| = part := by
      rw [add_sub_cancel_left, abs_of_nonneg least]
    constructor
    · rw [size]
      exact small
    · intro half
      have := atLeast.mp (by linarith)
      omega

/-! ## The scale of a fraction -/

/-- A power is a fraction of two natural powers, one of which is one. -/
theorem zpow_eq_div {base : ℚ} (nonzero : base ≠ 0) (power : Int) :
    base ^ power = base ^ power.toNat / base ^ (-power).toNat := by
  rw [← zpow_natCast, ← zpow_natCast, ← zpow_sub₀ nonzero, Int.toNat_sub_toNat_neg]

/-- One side of a fraction is scaled, the other one is kept. -/
theorem scaledFraction_eq (numerator denominator : Nat) (scale : Int) :
    scaledFraction numerator denominator scale =
      (numerator * 2 ^ (-scale).toNat, denominator * 2 ^ scale.toNat) := by
  simp only [scaledFraction, Nat.pow_eq]
  split
  · rw [Int.toNat_of_nonpos (by omega : -scale ≤ 0), pow_zero, mul_one]
  · rw [Int.toNat_of_nonpos (by omega : scale ≤ 0), pow_zero, mul_one]

/-- A fraction is scaled by a power of two. -/
theorem scaledFraction_spec (numerator : Nat) {denominator : Nat} (positive : 0 < denominator)
    (scale : Int) :
    let scaled := scaledFraction numerator denominator scale
    0 < scaled.2 ∧ (scaled.1 : ℚ) / scaled.2 = numerator / denominator / 2 ^ scale := by
  rw [scaledFraction_eq, zpow_eq_div two_ne_zero scale]
  refine ⟨by positivity, ?_⟩
  push_cast
  field_simp

/-- A greater power of two is no smaller. -/
theorem power_le {least other : Int} (le : least ≤ other) : (2 : ℚ) ^ least ≤ 2 ^ other :=
  zpow_le_zpow_right₀ one_le_two le

/-- A positive fraction is between powers of two next to the difference of the logarithms. -/
theorem log2_bounds {numerator denominator : Nat} (positive : 0 < numerator)
    (positive' : 0 < denominator) :
    let difference : Int := (numerator.log2 : Int) - denominator.log2
    (2 : ℚ) ^ (difference - 1) < numerator / denominator ∧
      (numerator : ℚ) / denominator < 2 ^ (difference + 1) := by
  intro difference
  have divides : (0 : ℚ) < denominator := by exact_mod_cast positive'
  have top : (2 : ℚ) ^ (numerator.log2 : Int) ≤ numerator := by
    exact_mod_cast Nat.log2_self_le positive.ne'
  have top' : (numerator : ℚ) < 2 ^ ((numerator.log2 : Int) + 1) := by
    exact_mod_cast Nat.lt_log2_self
  have bottom : (2 : ℚ) ^ (denominator.log2 : Int) ≤ denominator := by
    exact_mod_cast Nat.log2_self_le positive'.ne'
  have bottom' : (denominator : ℚ) < 2 ^ ((denominator.log2 : Int) + 1) := by
    exact_mod_cast Nat.lt_log2_self
  constructor
  · rw [lt_div_iff₀ divides]
    calc (2 : ℚ) ^ (difference - 1) * denominator
        < 2 ^ (difference - 1) * 2 ^ ((denominator.log2 : Int) + 1) := by gcongr
      _ = 2 ^ (numerator.log2 : Int) := by
        rw [← zpow_add₀ two_ne_zero]
        congr 1
        omega
      _ ≤ numerator := top
  · rw [div_lt_iff₀ divides]
    calc (numerator : ℚ) < 2 ^ ((numerator.log2 : Int) + 1) := top'
      _ = 2 ^ (difference + 1) * 2 ^ (denominator.log2 : Int) := by
        rw [← zpow_add₀ two_ne_zero]
        congr 1
        omega
      _ ≤ 2 ^ (difference + 1) * denominator := by gcongr

/-- At its scale a fraction is below the fifty-third power of two. It is not below the
fifty-second, unless the scale is the least one. -/
theorem scaleOf_spec {numerator denominator : Nat} (positive : 0 < numerator)
    (positive' : 0 < denominator) :
    let scale := scaleOf numerator denominator
    scale ≥ -1074 ∧ (numerator : ℚ) / denominator < 2 ^ (scale + 53) ∧
      (-1074 < scale → (2 : ℚ) ^ (scale + 52) ≤ numerator / denominator) := by
  intro scale
  let estimate : Int := (numerator.log2 : Int) - denominator.log2 - 52
  obtain ⟨above, below⟩ := log2_bounds positive positive'
  obtain ⟨divides, value⟩ := scaledFraction_spec numerator positive' estimate
  let top := (scaledFraction numerator denominator estimate).1
  let bottom := (scaledFraction numerator denominator estimate).2
  have short : top / bottom < 2 ^ 52 ↔ (numerator : ℚ) / denominator < 2 ^ (estimate + 52) := by
    have divides' : (0 : ℚ) < bottom := by exact_mod_cast divides
    rw [Nat.div_lt_iff_lt_mul divides, zpow_add₀ two_ne_zero, ← div_lt_iff₀' (by positivity),
      ← value, div_lt_iff₀ divides']
    exact_mod_cast Iff.rfl
  have scaled : scale = max (if top / bottom < 2 ^ 52 then estimate - 1 else estimate) (-1074) :=
    rfl
  split at scaled
  · rename_i shorter
    refine ⟨by omega, (short.mp shorter).trans_le (power_le (by omega)), fun more => ?_⟩
    exact (power_le (by omega)).trans above.le
  · rename_i longer
    refine ⟨by omega, below.trans_le (power_le (by omega)), fun more => ?_⟩
    exact (power_le (by omega)).trans (not_lt.mp (mt short.mpr longer))

/-! ## Reading -/

/-- The values that a word without its sign covers: counted in its last place they are nearest to
its significand. Below a power of two they have to be nearer. -/
structure Covers (number : Binary64) (value : ℚ) : Prop where
  near : Nearest (value / 2 ^ number.exponent) number.significand
  close : number.fraction = 0 → 1 < number.field →
    (number.significand : ℚ) - 1 / 4 ≤ value / 2 ^ number.exponent

section Reading

variable {value : ℚ} {scale : Int}

/-- A fraction divided by a power of two is bounded as the fraction is. -/
theorem scaled_lt {power : Int} (steps : Nat) (below : value < 2 ^ (power + steps)) :
    value / 2 ^ power < 2 ^ steps := by
  rwa [div_lt_iff₀' (by positivity), ← zpow_natCast, ← zpow_add₀ two_ne_zero]

/-- A fraction divided by a power of two is bounded as the fraction is. -/
theorem le_scaled {power : Int} (steps : Nat) (above : (2 : ℚ) ^ (power + steps) ≤ value) :
    2 ^ steps ≤ value / 2 ^ power := by
  rwa [le_div_iff₀' (by positivity), ← zpow_natCast, ← zpow_add₀ two_ne_zero]

/-- Only a fraction below a power of two is rounded at a finer scale, which is the next one.
Twice the power of two is nearest to it there. -/
theorem Covers.finer (covers : number.Covers value) (least : -1074 ≤ scale)
    (finer : scale < number.exponent) (below : value < 2 ^ (scale + 53)) :
    scale = number.exponent - 1 ∧ number.significand = 2 ^ 52 ∧
      Nearest (value / 2 ^ scale) (2 ^ 53) := by
  have leading := le_significand (by omega : -1074 < number.exponent)
  have less : value / 2 ^ number.exponent < 2 ^ 52 :=
    scaled_lt 52 (below.trans_le (power_le (by push_cast; omega)))
  have whole : number.significand = 2 ^ 52 := by
    have near := (abs_le.mp covers.near.near).1
    have : (number.significand : ℚ) < (2 ^ 52 + 1 : Nat) := by
      push_cast
      linarith
    have : number.significand < 2 ^ 52 + 1 := by exact_mod_cast this
    omega
  have normal : 1 < number.field := by
    have := finer
    simp only [exponent] at this
    omega
  have fractionless : number.fraction = 0 := by
    rw [significand, if_neg (by omega), Nat.pow_eq] at whole
    omega
  have close := covers.close fractionless normal
  rw [whole] at close
  push_cast at close
  have next : scale = number.exponent - 1 := by
    by_contra further
    have : value / 2 ^ number.exponent < 2 ^ 51 :=
      scaled_lt 51 (below.trans_le (power_le (by push_cast; omega)))
    linarith
  have twice : value / 2 ^ scale = 2 * (value / 2 ^ number.exponent) := by
    rw [next, zpow_sub_one₀ two_ne_zero]
    field_simp
  refine ⟨next, whole, ?_, fun _ => by decide⟩
  rw [twice, abs_le]
  push_cast
  constructor <;> linarith

/-- A value that a word covers is rounded to this word at the scale of the value. -/
theorem Covers.rounded (covers : number.Covers value) {rounded : Nat} (least : -1074 ≤ scale)
    (below : value < 2 ^ (scale + 53))
    (above : -1074 < scale → (2 : ℚ) ^ (scale + 52) ≤ value)
    (nearest : Nearest (value / 2 ^ scale) rounded) :
    (scale + 1074) * 2 ^ 52 + rounded = number.place := by
  rw [number.place_eq]
  rcases lt_trichotomy scale number.exponent with finer | same | coarser
  · obtain ⟨next, whole, double⟩ := covers.finer least finer below
    rw [nearest.unique double, whole, next]
    push_cast
    ring
  · rw [same] at nearest ⊢
    rw [nearest.unique covers.near]
  · have large : 2 ^ 53 ≤ value / 2 ^ number.exponent := by
      have := number.le_exponent
      exact le_scaled 53 ((power_le (by push_cast; omega)).trans (above (by omega)))
    have small : (number.significand : ℚ) + 1 ≤ 2 ^ 53 := by
      exact_mod_cast number.significand_lt
    have far := (abs_le.mp covers.near.near).2
    linarith

/-- A fraction that a word covers is read as this word. -/
theorem ofFraction_eq (finite : number.finite = true) (numerator : Nat) {denominator : Nat}
    (positive : 0 < denominator) (covers : number.Covers (numerator / denominator)) :
    ofFraction numerator denominator = number.magnitude := by
  have whole := number.place_eq
  by_cases zero : numerator = 0
  · have nothing : number.significand = 0 := by
      have near := covers.near
      rw [zero, Nat.cast_zero, zero_div, zero_div] at near
      exact near.unique ⟨by norm_num, fun _ => rfl⟩
    have least : number.exponent = -1074 := by
      have := number.le_exponent
      by_contra other
      have := le_significand (by omega : -1074 < number.exponent)
      omega
    have origin : number.place = 0 := by
      rw [nothing, least] at whole
      omega
    rw [ofFraction, if_pos zero, magnitude, origin]
    rfl
  · obtain ⟨least, below, above⟩ := scaleOf_spec (Nat.pos_of_ne_zero zero) positive
    let scale := scaleOf numerator denominator
    let scaled := scaledFraction numerator denominator scale
    let rounded := roundedQuotient scaled.1 scaled.2
    have nearest : Nearest (numerator / denominator / 2 ^ scale) rounded := by
      obtain ⟨divides, value⟩ := scaledFraction_spec numerator positive scale
      exact value ▸ roundedQuotient_nearest scaled.1 divides
    have sum := covers.rounded least below above nearest
    have word : (scale + 1074).toNat * 2 ^ 52 + rounded = number.place := by omega
    have inside := number.place_lt finite
    rw [ofFraction, if_neg zero]
    change (if (scale + 1074).toNat * 2 ^ 52 + rounded ≥ 2047 * 2 ^ 52 then infinity else
      ⟨.ofNat ((scale + 1074).toNat * 2 ^ 52 + rounded)⟩) = _
    rw [word, if_neg (by omega), magnitude]

/-- So it is for a decimal. -/
theorem ofDecimal_eq (finite : number.finite = true) (digits : Nat) (power : Int)
    (covers : number.Covers (digits * 10 ^ power)) :
    ofDecimal digits power = number.magnitude := by
  have ran : ofDecimal digits power =
      ofFraction (digits * 10 ^ power.toNat) (10 ^ (-power).toNat) := by
    simp only [ofDecimal, Nat.pow_eq]
    split
    · rw [Int.toNat_of_nonpos (by omega : -power ≤ 0), pow_zero]
    · rw [Int.toNat_of_nonpos (by omega : power ≤ 0), pow_zero, mul_one]
  rw [ran]
  refine ofFraction_eq finite _ (by positivity) ?_
  rw [zpow_eq_div (by norm_num), ← mul_div_assoc] at covers
  exact_mod_cast covers

end Reading

end ArrowScript.Binary64
