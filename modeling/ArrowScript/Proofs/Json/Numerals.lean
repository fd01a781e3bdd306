import ArrowScript.Json
import ArrowScript.Proofs.Binary64.Writing

/-!
# Numbers as documents have them

An integer is written without a point, an exponent and letters; a float always has one of
them. Floats are written by their shortest decimals, so the text tells the word. Only the words
that are no numbers are written alike.
-/

namespace ArrowScript

/-- A float as it is written. All words that are no numbers are written alike. -/
def Binary64.recorded (number : Binary64) : Binary64 :=
  if number.finite ∨ number.fraction = 0 then number else notANumber

/-- A number as it is written. -/
def Numeral.recorded : Numeral → Numeral
  | .int value => .int value
  | .float value => .float value.recorded

namespace Json

open Binary64

/-- The digits of a number begin with a digit. -/
theorem toDigits_opens (number : Nat) :
    ∃ first ∈ (Nat.toDigits 10 number).head?, first.isDigit = true :=
  Digits.opens (fun _ => Nat.isDigit_of_mem_toDigits (by decide) (by decide)) Nat.toDigits_ne_nil

/-- An integer is written by its digits, behind its sign. -/
theorem toList_int (value : Int) : (numeralText (.int value)).toList =
    (if decide (value < 0) then ['-'] else []) ++ Nat.toDigits 10 value.natAbs := by
  cases value with
  | ofNat number =>
    change (Nat.repr number).toList = _
    rw [Nat.toList_repr]
    simp
  | negSucc number =>
    change ("-" ++ Nat.repr (number + 1)).toList = _
    rw [String.toList_append, Nat.toList_repr]
    simp

/-- Integers that are written alike are the same. -/
theorem int_inj {one other : Int}
    (same : numeralText (.int one) = numeralText (.int other)) : one = other := by
  have texts := congrArg String.toList same
  rw [toList_int, toList_int] at texts
  obtain ⟨signs, digits⟩ := sign_inj (toDigits_opens _) (toDigits_opens _) texts
  have values := congrArg (Nat.ofDigitChars 10 · 0) digits
  simp only [Nat.ofDigitChars_ten_toDigits, decide_eq_decide] at values signs
  omega

/-- The text of a float that is not finite. -/
theorem numeralText_infinite {value : Binary64} (infinite : value.finite = false) :
    numeralText (.float value) = if value.fraction = 0 then
      (if value.negative then "-Infinity" else "Infinity") else "NaN" := by
  simp [numeralText, infinite]

/-- The text of a finite float has a point or an exponent. -/
theorem finite_marked {value : Binary64} (finite : value.finite = true) :
    '.' ∈ (numeralText (.float value)).toList ∨ 'e' ∈ (numeralText (.float value)).toList := by
  rw [numeralText, if_pos finite, toList_text finite]
  simp only [List.mem_append]
  exact (magnitudeText_writes value).marked.imp .inr .inr

/-- Only the text of a finite float has a point or an exponent. -/
theorem infinite_unmarked {value : Binary64} (infinite : value.finite = false) :
    '.' ∉ (numeralText (.float value)).toList ∧ 'e' ∉ (numeralText (.float value)).toList := by
  rw [numeralText_infinite infinite]
  split
  · split <;> decide
  · decide

/-- The text of an integer has only digits and a sign. -/
theorem int_characters (value : Int) : ∀ character ∈ (numeralText (.int value)).toList,
    character.isDigit = true ∨ character = '-' := by
  rw [toList_int, List.forall_mem_append]
  constructor
  · split <;> simp
  · intro character member
    exact .inl (Nat.isDigit_of_mem_toDigits (by decide) (by decide) member)

/-- A float is never written like an integer. -/
theorem float_ne_int (number : Binary64) (value : Int) :
    numeralText (.float number) ≠ numeralText (.int value) := by
  intro same
  have unmarked {mark : Char} (noDigit : mark.isDigit = false) (noSign : mark ≠ '-') :
      mark ∉ (numeralText (.float number)).toList := by
    intro member
    rw [same] at member
    rcases int_characters value mark member with digit | sign
    · exact absurd digit (by simp [noDigit])
    · exact noSign sign
  by_cases finite : number.finite = true
  · rcases finite_marked finite with point | exponent
    · exact unmarked rfl (by decide) point
    · exact unmarked rfl (by decide) exponent
  · have text := numeralText_infinite (Bool.eq_false_iff.mpr finite)
    have letter : 'N' ∈ (numeralText (.float number)).toList ∨
        'I' ∈ (numeralText (.float number)).toList := by
      rw [text]
      split
      · split <;> decide
      · decide
    rcases letter with member | member
    · exact unmarked rfl (by decide) member
    · exact unmarked rfl (by decide) member

/-- Infinite floats that are written alike are the same. -/
theorem infinite_inj {one other : Binary64} (infinite : one.finite = false)
    (infinite' : other.finite = false)
    (same : numeralText (.float one) = numeralText (.float other)) :
    one.recorded = other.recorded := by
  rw [numeralText_infinite infinite, numeralText_infinite infinite'] at same
  rw [Binary64.recorded, Binary64.recorded, infinite, infinite']
  simp only [Bool.false_eq_true, false_or]
  by_cases whole : one.fraction = 0 <;> by_cases whole' : other.fraction = 0
  all_goals simp only [whole, whole', if_true, if_false] at same ⊢
  · have signs : one.negative = other.negative := by
      revert same
      cases one.negative <;> cases other.negative <;> decide
    have filled {number : Binary64} (infinite : number.finite = false) : number.field = 2047 := by
      simpa [Binary64.finite] using infinite
    apply eq_of_place signs
    rw [place_parts, place_parts, filled infinite, filled infinite', whole, whole']
  · exact absurd same (by cases one.negative <;> decide)
  · exact absurd same (by cases other.negative <;> decide)

/-- Floats that are written alike are the same, or no numbers both. -/
theorem float_inj {one other : Binary64}
    (same : numeralText (.float one) = numeralText (.float other)) :
    one.recorded = other.recorded := by
  cases finite : one.finite <;> cases finite' : other.finite
  · exact infinite_inj finite finite' same
  · have marked := finite_marked finite'
    rw [← same] at marked
    exact absurd marked (by simp [infinite_unmarked finite])
  · have marked := finite_marked finite
    rw [same] at marked
    exact absurd marked (by simp [infinite_unmarked finite'])
  · rw [numeralText, numeralText, if_pos finite, if_pos finite'] at same
    rw [eq_of_text finite finite' same]

/-- A number is written as what is recorded of it. -/
theorem numeralText_recorded (value : Numeral) :
    numeralText value.recorded = numeralText value := by
  cases value with
  | int value => rfl
  | float value =>
    rw [Numeral.recorded, Binary64.recorded]
    split
    · rfl
    · rename_i unknown
      obtain ⟨infinite, fraction⟩ := not_or.mp unknown
      rw [numeralText_infinite (Bool.eq_false_iff.mpr infinite), if_neg fraction]
      decide

/-- Numbers are written alike exactly when they are the same, or floats that are no numbers. -/
theorem numeralText_eq_iff {one other : Numeral} :
    numeralText one = numeralText other ↔ one.recorded = other.recorded := by
  constructor
  · intro same
    cases one with
    | int value =>
      cases other with
      | int another => rw [int_inj same]
      | float number => exact absurd same.symm (float_ne_int number value)
    | float number =>
      cases other with
      | int value => exact absurd same (float_ne_int number value)
      | float another => exact congrArg Numeral.float (float_inj same)
  · intro same
    rw [← numeralText_recorded one, same, numeralText_recorded]

/-- The text of a number has no comma and no end of a line. -/
theorem numeralText_inline (value : Numeral) :
    ∀ character ∈ (numeralText value).toList, character ≠ ',' ∧ character ≠ '\n' := by
  have digits {character : Char} (digit : character.isDigit = true) :
      character ≠ ',' ∧ character ≠ '\n' := by
    constructor
    · rintro rfl
      exact absurd digit (by decide)
    · rintro rfl
      exact absurd digit (by decide)
  cases value with
  | int value =>
    intro character member
    rcases int_characters value character member with digit | rfl
    · exact digits digit
    · decide
  | float number =>
    by_cases finite : number.finite = true
    · rw [numeralText, if_pos finite, toList_text finite, List.forall_mem_append]
      constructor
      · split <;> simp
      · intro character member
        rcases (magnitudeText_writes number).numeric character member with digit | mark
        · exact digits digit
        · simp only [List.mem_cons, List.not_mem_nil, or_false] at mark
          rcases mark with rfl | rfl | rfl | rfl <;> decide
    · rw [numeralText_infinite (Bool.eq_false_iff.mpr finite)]
      split
      · split <;> simp
      · simp

end Json

end ArrowScript
