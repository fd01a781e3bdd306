import Mathlib.Data.Nat.Notation
import ArrowScript.Json

/-!
# Quoted texts can be read in one way only

A character between quotes is read from the front: behind a backslash stands the name of a
character, or a code unit of four hexadecimal digits. Two units are read as one character if
the first one is the upper half of a surrogate pair, which no character has as its own unit.
The closing quote is never read as a character, since quotes inside the text have a backslash
before them.
-/

namespace ArrowScript.Json

/-! ## Hexadecimal digits -/

/-- The value of a hexadecimal digit. -/
def digitValue (digit : Char) : Nat :=
  if digit.isDigit then digit.toNat - '0'.toNat else digit.toNat - 'a'.toNat + 10

/-- The number written by hexadecimal digits. -/
def hexValue (digits : List Char) : Nat :=
  digits.foldl (fun value digit => 16 * value + digitValue digit) 0

/-- The digit of a small number has this value. -/
theorem digitValue_digitChar : ∀ number < 16, digitValue number.digitChar = number := by decide

/-- A number is written by its hexadecimal digits. -/
theorem hexValue_toDigits (number : Nat) : hexValue (Nat.toDigits 16 number) = number := by
  induction number using Nat.strongRecOn with
  | ind number inductionHypothesis =>
    by_cases small : number < 16
    · rw [Nat.toDigits_of_lt_base small]
      simp [hexValue, digitValue_digitChar number small]
    · rw [Nat.toDigits_of_base_le (by decide) (by omega), hexValue, List.foldl_append,
        ← hexValue, inductionHypothesis (number / 16) (by omega)]
      simp [digitValue_digitChar _ (Nat.mod_lt number (by decide : 16 > 0))]
      omega

/-- Zeros in front do not count. -/
theorem hexValue_hexadecimal (width number : Nat) :
    hexValue (Text.hexadecimal width number) = number := by
  have zeros (count : Nat) : hexValue (List.replicate count '0') = 0 := by
    induction count with
    | zero => rfl
    | succ count inductionHypothesis => exact inductionHypothesis
  rw [Text.hexadecimal, hexValue, List.foldl_append, ← hexValue, zeros]
  exact hexValue_toDigits number

/-- A code unit has four digits. -/
theorem length_hexadecimal {unit : Nat} (small : unit < 0x10000) :
    (Text.hexadecimal 4 unit).length = 4 := by
  have short : (Nat.toDigits 16 unit).length ≤ 4 :=
    (Nat.length_toDigits_le_iff (by decide) (by decide)).mpr small
  rw [Text.hexadecimal, List.length_append, List.length_replicate]
  omega

/-! ## Characters -/

/-- The character that a letter or a mark behind a backslash stands for. -/
def namedCharacter : Char → Char
  | 'n' => '\n'
  | 'r' => '\r'
  | 't' => '\t'
  | 'b' => '\x08'
  | 'f' => '\x0c'
  | other => other

/-- The character at the front of a quoted text, and what is behind it. -/
def readCharacter : List Char → Option (Char × List Char)
  | [] => none
  | '\\' :: 'u' :: rest =>
    let unit := hexValue (rest.take 4)
    if 0xD800 ≤ unit ∧ unit < 0xDC00 then
      let lower := hexValue ((rest.drop 6).take 4)
      some (.ofNat (0x10000 + (unit - 0xD800) * 0x400 + (lower - 0xDC00)), rest.drop 10)
    else some (.ofNat unit, rest.drop 4)
  | '\\' :: mark :: rest => some (namedCharacter mark, rest)
  | character :: rest => some (character, rest)

/-- A character that is not a backslash is read as it stands. -/
theorem readCharacter_plain {character : Char} (plain : character ≠ '\\') (rest : List Char) :
    readCharacter (character :: rest) = some (character, rest) := by
  rw [readCharacter]
  · rintro _ rfl
    exact absurd rfl plain
  · rintro _ _ rfl
    exact absurd rfl plain

/-- A code unit is read up to its fourth digit. -/
theorem hexValue_take {unit : Nat} (small : unit < 0x10000) (rest : List Char) :
    hexValue ((Text.hexadecimal 4 unit ++ rest).take 4) = unit := by
  rw [List.take_left' (length_hexadecimal small), hexValue_hexadecimal]

/-- A unit of its own is read as its character. -/
theorem readCharacter_unit {unit : Nat} (small : unit < 0x10000)
    (single : unit < 0xD800 ∨ 0xDC00 ≤ unit) (rest : List Char) :
    readCharacter (unitEscape unit ++ rest) = some (.ofNat unit, rest) := by
  rw [unitEscape, List.cons_append, List.cons_append, readCharacter]
  simp only [hexValue_take small]
  rw [if_neg (by omega), List.drop_left' (length_hexadecimal small)]

/-- The units of a surrogate pair are read as one character. -/
theorem readCharacter_pair {upper lower : Nat} (isUpper : upper < 0x400) (isLower : lower < 0x400)
    (rest : List Char) :
    readCharacter (unitEscape (0xD800 + upper) ++ (unitEscape (0xDC00 + lower) ++ rest)) =
      some (.ofNat (0x10000 + upper * 0x400 + lower), rest) := by
  have first := length_hexadecimal (by omega : 0xD800 + upper < 0x10000)
  have second := length_hexadecimal (by omega : 0xDC00 + lower < 0x10000)
  rw [unitEscape, List.cons_append, List.cons_append, readCharacter]
  simp only [hexValue_take (by omega : 0xD800 + upper < 0x10000)]
  have behind : (Text.hexadecimal 4 (0xD800 + upper) ++
      (unitEscape (0xDC00 + lower) ++ rest)).drop 6 =
        Text.hexadecimal 4 (0xDC00 + lower) ++ rest := by
    rw [List.drop_append, List.drop_of_length_le (by omega), first]
    rfl
  have further : (Text.hexadecimal 4 (0xD800 + upper) ++
      (unitEscape (0xDC00 + lower) ++ rest)).drop 10 = rest := by
    rw [← List.drop_drop (i := 4) (j := 6), behind, List.drop_left' second]
  rw [if_pos (by omega), behind, further, hexValue_take (by omega), Nat.add_sub_cancel_left,
    Nat.add_sub_cancel_left]

/-- An escaped character is read back. -/
theorem readCharacter_escaped (character : Char) (rest : List Char) :
    readCharacter (escaped character ++ rest) = some (character, rest) := by
  have valid : character.toNat < 0xD800 ∨
      (0xDFFF < character.toNat ∧ character.toNat < 0x110000) := character.valid
  have named : Char.ofNat character.toNat = character := Char.ofNat_toNat character
  rw [escaped]
  split
  · rename_i marked
    rcases marked with rfl | rfl <;> rfl
  · rename_i unmarked
    split
    · subst character
      rfl
    split
    · subst character
      rfl
    split
    · subst character
      rfl
    split
    · rename_i code
      rw [← named, code]
      rfl
    split
    · rename_i code
      rw [← named, code]
      rfl
    split
    · exact readCharacter_plain (not_or.mp unmarked).2 rest
    split
    · rw [readCharacter_unit (by omega) (by omega), named]
    · have code : 0x10000 + (character.toNat - 0x10000) / 0x400 * 0x400 +
          (character.toNat - 0x10000) % 0x400 = character.toNat := by omega
      rw [List.append_assoc, readCharacter_pair (by omega) (by omega), code, named]

/-- Texts that are quoted alike are the same, and so is what is behind them. -/
theorem quoted_inj {one other rest further : List Char}
    (alike : one.flatMap escaped ++ '"' :: rest = other.flatMap escaped ++ '"' :: further) :
    one = other ∧ rest = further := by
  have closing (behind : List Char) : readCharacter ('"' :: behind) = some ('"', behind) :=
    readCharacter_plain (by decide) behind
  have opened {character : Char} {text behind : List Char} :
      '"' :: behind ≠ escaped character ++ text := by
    intro same
    have read := congrArg readCharacter same
    rw [closing, readCharacter_escaped] at read
    obtain ⟨rfl, -⟩ := Prod.mk.inj (Option.some.inj read)
    exact absurd (List.cons.inj same).1 (by decide)
  induction one generalizing other with
  | nil =>
    cases other with
    | nil => exact ⟨rfl, (List.cons.inj alike).2⟩
    | cons character text =>
      rw [List.flatMap_cons, List.append_assoc] at alike
      exact absurd alike opened
  | cons character text inductionHypothesis =>
    cases other with
    | nil =>
      rw [List.flatMap_cons, List.append_assoc] at alike
      exact absurd alike.symm opened
    | cons another others =>
      rw [List.flatMap_cons, List.flatMap_cons, List.append_assoc, List.append_assoc] at alike
      have read := congrArg readCharacter alike
      rw [readCharacter_escaped, readCharacter_escaped] at read
      obtain ⟨rfl, behind⟩ := Prod.mk.inj (Option.some.inj read)
      obtain ⟨rfl, same⟩ := inductionHypothesis behind
      exact ⟨rfl, same⟩

end ArrowScript.Json
