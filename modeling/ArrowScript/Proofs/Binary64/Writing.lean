import Mathlib.Data.List.TakeWhile
import ArrowScript.Proofs.Binary64.Shortest

/-!
# The text of a word reads back

A text is read as a decimal: the digits up to an exponent, with as many of them behind the
point as there are, and the exponent. In either notation the text of a word is read as its
shortest decimal, up to zeros at the end. So finite words without a sign have the same text
only if they are the same.
-/

namespace ArrowScript.Binary64

/-! ## Reading a text -/

/-- The decimal that is written by digits with a point among them or without one. -/
def fixedDecimal (mantissa : List Char) : Decimal :=
  ⟨Nat.ofDigitChars 10 (mantissa.filter (· != '.')) 0,
    -((mantissa.dropWhile (· != '.')).tail.length : Int)⟩

/-- The integer that is written behind a sign. -/
def signedValue : List Char → Int
  | [] => 0
  | sign :: digits =>
    if sign = '-' then -(Nat.ofDigitChars 10 digits 0 : Int) else Nat.ofDigitChars 10 digits 0

/-- The decimal that is written by a text, perhaps with an exponent. -/
def writtenDecimal (text : List Char) : Decimal :=
  let fixed := fixedDecimal (text.takeWhile (· != 'e'))
  { fixed with power := fixed.power + signedValue (text.dropWhile (· != 'e')).tail }

/-- Nothing but digits. -/
def Digits (text : List Char) : Prop := ∀ character ∈ text, character.isDigit = true

theorem Digits.append {text rest : List Char} (digits : Digits text) (more : Digits rest) :
    Digits (text ++ rest) := by
  simp only [Digits, List.mem_append]
  rintro character (member | member)
  · exact digits character member
  · exact more character member

theorem digits_replicate (count : Nat) : Digits (List.replicate count '0') := by
  intro character member
  rw [List.eq_of_mem_replicate member]
  rfl

/-- No digit is a mark. -/
theorem Digits.ne {text : List Char} (digits : Digits text) {mark : Char}
    (other : mark.isDigit = false) : ∀ character ∈ text, (character != mark) = true := by
  intro character member
  rw [bne_iff_ne]
  rintro rfl
  exact absurd (digits character member) (by simp [other])

section Fixed

variable {whole decimals : List Char}

/-- Digits without a point are a whole number. -/
theorem fixedDecimal_whole (digits : Digits whole) :
    fixedDecimal whole = ⟨Nat.ofDigitChars 10 whole 0, 0⟩ := by
  have pointless : ∀ digit ∈ whole, (digit != '.') = true := digits.ne rfl
  rw [fixedDecimal, List.filter_eq_self.mpr pointless, List.dropWhile_eq_nil_iff.mpr pointless]
  rfl

/-- The digits behind the point are counted. -/
theorem fixedDecimal_point (digits : Digits whole) (behind : Digits decimals) :
    fixedDecimal (whole ++ '.' :: decimals) =
      ⟨Nat.ofDigitChars 10 (whole ++ decimals) 0, -(decimals.length : Int)⟩ := by
  have pointless : ∀ digit ∈ whole, (digit != '.') = true := digits.ne rfl
  have pointless' : ∀ digit ∈ decimals, (digit != '.') = true := behind.ne rfl
  rw [fixedDecimal, List.dropWhile_append_of_pos pointless, List.filter_append,
    List.filter_eq_self.mpr pointless, List.filter_cons_of_neg (by simp),
    List.filter_eq_self.mpr pointless', List.dropWhile_cons_of_neg (by simp), List.tail_cons]

/-- A text without an exponent. -/
theorem writtenDecimal_plain {text : List Char}
    (plain : ∀ character ∈ text, (character != 'e') = true) :
    writtenDecimal text = fixedDecimal text := by
  rw [writtenDecimal, List.takeWhile_eq_self_iff.mpr plain, List.dropWhile_eq_nil_iff.mpr plain]
  simp [signedValue]

/-- A text with an exponent. -/
theorem writtenDecimal_exponent {text : List Char}
    (plain : ∀ character ∈ text, (character != 'e') = true) (exponent : List Char) :
    writtenDecimal (text ++ 'e' :: exponent) =
      ⟨(fixedDecimal text).digits, (fixedDecimal text).power + signedValue exponent⟩ := by
  rw [writtenDecimal, List.takeWhile_append_of_pos plain, List.takeWhile_cons_of_neg (by simp),
    List.append_nil, List.dropWhile_append_of_pos plain, List.dropWhile_cons_of_neg (by simp)]
  rfl

end Fixed

/-- The characters of a decimal with a point or an exponent. -/
def Numeric (character : Char) : Prop :=
  character.isDigit = true ∨ character ∈ ['.', 'e', '+', '-']

/-- A text is the decimal notation of a value. -/
structure Writes (text : List Char) (value : ℚ) : Prop where
  /-- It begins with a digit. -/
  opens : ∃ first ∈ text.head?, first.isDigit = true
  /-- It has a point or an exponent. -/
  marked : '.' ∈ text ∨ 'e' ∈ text
  /-- It has no other characters than decimals have. -/
  numeric : ∀ character ∈ text, Numeric character
  /-- It is read as the value. -/
  reads : (writtenDecimal text).value = value

/-- Digits begin with a digit. -/
theorem Digits.opens {text : List Char} (digits : Digits text) (some : text ≠ []) :
    ∃ first ∈ text.head?, first.isDigit = true := by
  obtain ⟨first, rest, rfl⟩ := List.exists_cons_of_ne_nil some
  exact ⟨first, rfl, digits first List.mem_cons_self⟩

/-- All digits are such characters. -/
theorem Digits.numeric {text : List Char} (digits : Digits text) :
    ∀ character ∈ text, Numeric character :=
  fun character member => .inl (digits character member)

/-! ## Writing -/

/-- Behind the significant digits there are only zeros. -/
theorem exists_zeros (digits : Nat) :
    ∃ zeros, Nat.toDigits 10 digits = significantDigits digits ++ List.replicate zeros '0' := by
  let reversed := (Nat.toDigits 10 digits).reverse
  have zeros : reversed.takeWhile (· == '0') =
      List.replicate (reversed.takeWhile (· == '0')).length '0' :=
    List.eq_replicate_of_mem fun character member => by
      simpa using List.mem_takeWhile_imp member
  have parts := @List.takeWhile_append_dropWhile _ (· == '0') reversed
  refine ⟨(reversed.takeWhile (· == '0')).length, ?_⟩
  rw [zeros] at parts
  have turned := congrArg List.reverse parts
  rwa [List.reverse_append, List.reverse_replicate, List.reverse_reverse, eq_comm] at turned

/-- The significant digits are digits. -/
theorem digits_significant (digits : Nat) : Digits (significantDigits digits) := by
  obtain ⟨zeros, split⟩ := exists_zeros digits
  intro character member
  refine Nat.isDigit_of_mem_toDigits (b := 10) (n := digits) (by decide) (by decide) ?_
  rw [split]
  exact List.mem_append_left _ member

/-- The power of ten of the leading digit of a decimal. -/
def Decimal.leading (decimal : Decimal) : Int :=
  decimal.power + (digitCount decimal.digits : Int) - 1

/-- A decimal is told by its significant digits and the power of ten of the leading one. -/
theorem Decimal.value_eq (decimal : Decimal) :
    let digits := significantDigits decimal.digits
    decimal.value = Nat.ofDigitChars 10 digits 0 * 10 ^ (decimal.leading + 1 - digits.length) := by
  intro digits
  obtain ⟨zeros, split⟩ := exists_zeros decimal.digits
  have whole : decimal.digits = Nat.ofDigitChars 10 digits 0 * 10 ^ zeros := by
    have same := congrArg (Nat.ofDigitChars 10 · 0) split
    simpa [Nat.ofDigitChars_append, mul_comm] using same
  have count : digitCount decimal.digits = digits.length + zeros := by
    rw [digitCount, split, List.length_append, List.length_replicate]
  rw [value, leading, count]
  conv_lhs => rw [whole]
  push_cast
  rw [mul_assoc, ← zpow_natCast, ← zpow_add₀ (by norm_num)]
  congr 2
  omega

/-- Positional notation has digits on both sides of a point. The digits are those given, up to
zeros around them. -/
theorem positional_eq {digits : List Char} (only : Digits digits) (some : digits ≠ [])
    (leading : Int) :
    ∃ whole decimals, positional digits leading = whole ++ '.' :: decimals ∧
      whole ≠ [] ∧ Digits whole ∧ Digits decimals ∧
      (Nat.ofDigitChars 10 (whole ++ decimals) 0 : ℚ) * 10 ^ (-(decimals.length : Int)) =
        Nat.ofDigitChars 10 digits 0 * 10 ^ (leading + 1 - digits.length) := by
  rw [positional]
  split
  · refine ⟨['0'], List.replicate (-leading - 1).toNat '0' ++ digits, rfl,
      List.cons_ne_nil _ _, digits_replicate 1, (digits_replicate _).append only, ?_⟩
    simp only [Nat.ofDigitChars_append, List.length_append, List.length_replicate]
    congr 2
    · simp [Nat.ofDigitChars_cons]
    · omega
  · let wholeLength := leading.toNat + 1
    by_cases short : digits.length ≤ wholeLength
    · refine ⟨digits ++ List.replicate (wholeLength - digits.length) '0', ['0'], ?_,
        List.append_ne_nil_of_left_ne_nil some _, only.append (digits_replicate _),
        digits_replicate 1, ?_⟩
      · simp only [wholeLength] at short ⊢
        rw [List.take_of_length_le short, List.drop_of_length_le short]
        rfl
      · have power : leading + 1 - digits.length = (wholeLength - digits.length : Nat) := by
          omega
        rw [power, zpow_natCast]
        simp [Nat.ofDigitChars_append, Nat.ofDigitChars_cons]
        ring
    · refine ⟨digits.take wholeLength, digits.drop wholeLength, ?_,
        by simp [wholeLength, some],
        fun character member => only character (List.mem_of_mem_take member),
        fun character member => only character (List.mem_of_mem_drop member), ?_⟩
      · have full : (digits.take wholeLength).length = wholeLength :=
          List.length_take_of_le (by omega)
        have further : (digits.drop wholeLength).isEmpty = false := by
          rw [List.isEmpty_eq_false_iff, Ne, List.drop_eq_nil_iff]
          omega
        simp only [wholeLength] at full further ⊢
        rw [full, Nat.sub_self, further, List.replicate_zero, List.append_nil,
          if_neg Bool.false_ne_true]
      · rw [List.take_append_drop, List.length_drop]
        congr 2
        omega

/-- Positional notation is a notation of its digits. -/
theorem positional_writes {digits : List Char} (only : Digits digits) (some : digits ≠ [])
    (leading : Int) :
    Writes (positional digits leading)
      (Nat.ofDigitChars 10 digits 0 * 10 ^ (leading + 1 - digits.length)) := by
  obtain ⟨whole, decimals, split, begun, front, behind, value⟩ := positional_eq only some leading
  rw [split]
  constructor
  · rw [List.head?_append_of_ne_nil _ begun]
    exact front.opens begun
  · simp
  · rw [List.forall_mem_append, List.forall_mem_cons]
    exact ⟨front.numeric, .inr (by simp), behind.numeric⟩
  · have plain : ∀ character ∈ whole ++ '.' :: decimals, (character != 'e') = true := by
      rw [List.forall_mem_append, List.forall_mem_cons]
      exact ⟨front.ne rfl, by decide, behind.ne rfl⟩
    rw [writtenDecimal_plain plain, fixedDecimal_point front behind]
    exact value

/-- The exponent is read as what is written. -/
theorem signedValue_exponent (leading : Int) :
    let power := Nat.toDigits 10 leading.natAbs
    signedValue ((if leading < 0 then '-' else '+') ::
      (if power.length < 2 then '0' :: power else power)) = leading := by
  intro power
  have value : Nat.ofDigitChars 10 (if power.length < 2 then '0' :: power else power) 0 =
      leading.natAbs := by
    split <;> simp [power, Nat.ofDigitChars_cons]
  rw [signedValue, value]
  by_cases negative : leading < 0
  · rw [if_pos negative, if_pos rfl]
    omega
  · rw [if_neg negative, if_neg (by decide)]
    omega

/-- The digits before an exponent have a point behind the first one, if there are several. -/
theorem exponential_eq {digits : List Char} (only : Digits digits) (some : digits ≠ [])
    (leading : Int) :
    ∃ mantissa exponent, exponential digits leading = mantissa ++ 'e' :: exponent ∧
      mantissa.head? = digits.head? ∧ (∀ character ∈ mantissa, (character != 'e') = true) ∧
      signedValue exponent = leading ∧
      fixedDecimal mantissa =
        ⟨Nat.ofDigitChars 10 digits 0, -((digits.length : Int) - 1)⟩ := by
  match digits with
  | [] => exact absurd rfl some
  | [digit] =>
    refine ⟨[digit], _, rfl, rfl, only.ne rfl, signedValue_exponent leading, ?_⟩
    rw [fixedDecimal_whole only]
    rfl
  | first :: second :: rest =>
    have ⟨here, behind⟩ : Digits [first] ∧ Digits (second :: rest) := by
      rw [Digits, List.forall_mem_cons] at only
      exact ⟨List.forall_mem_singleton.mpr only.1, only.2⟩
    refine ⟨first :: '.' :: second :: rest, _, rfl, rfl, ?_, signedValue_exponent leading, ?_⟩
    · simp only [List.forall_mem_cons]
      exact ⟨here.ne rfl first (List.mem_singleton_self _), by decide,
        List.forall_mem_cons.mp (behind.ne rfl)⟩
    · have read := fixedDecimal_point here behind
      rw [List.singleton_append] at read
      rw [read, List.singleton_append]
      simp

/-- Notation with an exponent has only the characters of decimals. -/
theorem numeric_exponential {digits : List Char} (only : Digits digits) (leading : Int) :
    ∀ character ∈ exponential digits leading, Numeric character := by
  have power : Digits (Nat.toDigits 10 leading.natAbs) := fun _ =>
    Nat.isDigit_of_mem_toDigits (by decide) (by decide)
  unfold exponential
  rw [List.forall_mem_append, List.forall_mem_cons, List.forall_mem_cons]
  refine ⟨?_, .inr (by simp), ?_, ?_⟩
  · split
    · have parts := List.forall_mem_cons.mp only
      rw [List.forall_mem_cons, List.forall_mem_cons]
      exact ⟨.inl parts.1, .inr (by simp), Digits.numeric parts.2⟩
    · exact only.numeric
  · split <;> exact .inr (by simp)
  · split
    · exact ((digits_replicate 1).append power).numeric
    · exact power.numeric

/-- Notation with an exponent is a notation of its digits. -/
theorem exponential_writes {digits : List Char} (only : Digits digits) (some : digits ≠ [])
    (leading : Int) :
    Writes (exponential digits leading)
      (Nat.ofDigitChars 10 digits 0 * 10 ^ (leading + 1 - digits.length)) := by
  have numeric := numeric_exponential only leading
  obtain ⟨mantissa, exponent, split, same, plain, power, fixed⟩ :=
    exponential_eq only some leading
  rw [split] at numeric ⊢
  constructor
  · obtain ⟨first, opens, digit⟩ := only.opens some
    rw [List.head?_append, same, opens]
    exact ⟨first, rfl, digit⟩
  · simp
  · exact numeric
  · rw [writtenDecimal_exponent plain, fixed, power, Decimal.value]
    congr 2
    simp only
    omega

/-- Only very large and very small words are written with an exponent. -/
theorem magnitudeText_eq (number : Binary64) :
    let digits := significantDigits number.shortest.digits
    let leading := number.shortest.leading
    number.magnitudeText = if digits = [] then ['0', '.', '0']
      else if -4 ≤ leading ∧ leading < 16 then positional digits leading
      else exponential digits leading := by
  intro digits leading
  rw [magnitudeText]
  split
  · rename_i none
    rw [if_pos none]
  · rename_i some
    rw [if_neg some]
    rfl

/-- The text of the magnitude of a word is a notation of its shortest decimal. -/
theorem magnitudeText_writes (number : Binary64) :
    Writes number.magnitudeText number.shortest.value := by
  let digits := significantDigits number.shortest.digits
  have only : Digits digits := digits_significant _
  rw [magnitudeText_eq, number.shortest.value_eq]
  by_cases zero : digits = []
  · rw [if_pos zero]
    refine ⟨⟨'0', rfl, rfl⟩, .inl (by decide), by simp [Numeric], ?_⟩
    change _ = (Nat.ofDigitChars 10 digits 0 : ℚ) * _
    rw [zero]
    simp [Decimal.value, writtenDecimal, fixedDecimal, Nat.ofDigitChars]
  · rw [if_neg zero]
    split
    · exact positional_writes only zero _
    · exact exponential_writes only zero _

/-- Reading the text of the magnitude of a finite word gives the word without its sign. -/
theorem ofDecimal_magnitudeText {number : Binary64} (finite : number.finite = true) :
    let written := writtenDecimal number.magnitudeText
    ofDecimal written.digits written.power = number.magnitude := by
  refine ofDecimal_eq finite _ _ ?_
  have covers := number.covers_shortest
  rwa [← (magnitudeText_writes number).reads] at covers

/-! ## Words with the same text -/

/-- A word is told by its sign and the word without it. -/
theorem eq_of_place {one other : Binary64} (signs : one.negative = other.negative)
    (places : one.place = other.place) : one = other := by
  obtain ⟨bits⟩ := one
  obtain ⟨others⟩ := other
  congr 1
  have small := bits.toNat_lt
  have small' := others.toNat_lt
  have halves : bits.toNat / 2 ^ 63 = 1 ↔ others.toNat / 2 ^ 63 = 1 := by
    simpa [negative] using signs
  apply UInt64.toNat_inj.mp
  simp only [place] at places
  omega

/-- Words without a sign are the same only if they have the same place. -/
theorem place_eq_of_magnitude {one other : Binary64} (same : one.magnitude = other.magnitude) :
    one.place = other.place := by
  have inside (number : Binary64) : number.place < 2 ^ 64 := by
    simp only [place]
    omega
  have words := congrArg (fun number => number.bits.toNat) same
  simpa only [magnitude, UInt64.toNat_ofNat_of_lt' (inside _)] using words

/-- The text of a finite word is that of its magnitude, behind its sign. -/
theorem toList_text {number : Binary64} (finite : number.finite = true) :
    number.text.toList = (if number.negative then ['-'] else []) ++ number.magnitudeText := by
  rw [text, if_pos finite, String.toList_append, String.toList_ofList]
  cases number.negative <;> rfl

/-- A sign is told from what begins with a digit. -/
theorem sign_inj {one other : Bool} {text further : List Char}
    (opens : ∃ first ∈ text.head?, first.isDigit = true)
    (opens' : ∃ first ∈ further.head?, first.isDigit = true)
    (alike : (if one then ['-'] else []) ++ text = (if other then ['-'] else []) ++ further) :
    one = other ∧ text = further := by
  have unsigned {text rest : List Char} (opens : ∃ first ∈ text.head?, first.isDigit = true) :
      text ≠ '-' :: rest := by
    rintro rfl
    obtain ⟨first, signed, digit⟩ := opens
    rw [List.head?_cons, Option.mem_some_iff] at signed
    exact absurd digit (by simp [← signed])
  cases one <;> cases other
  all_goals simp only [if_true, if_neg Bool.false_ne_true, List.nil_append] at alike
  · exact ⟨rfl, alike⟩
  · exact absurd alike (unsigned opens)
  · exact absurd alike.symm (unsigned opens')
  · exact ⟨rfl, (List.cons.inj alike).2⟩

/-- Finite words have the same text only if they are the same. -/
theorem eq_of_text {one other : Binary64} (finite : one.finite = true)
    (finite' : other.finite = true) (same : one.text = other.text) : one = other := by
  have texts := congrArg String.toList same
  rw [toList_text finite, toList_text finite'] at texts
  obtain ⟨signs, magnitudes⟩ :=
    sign_inj (magnitudeText_writes one).opens (magnitudeText_writes other).opens texts
  apply eq_of_place signs
  apply place_eq_of_magnitude
  rw [← ofDecimal_magnitudeText finite, magnitudes, ofDecimal_magnitudeText finite']

end ArrowScript.Binary64
