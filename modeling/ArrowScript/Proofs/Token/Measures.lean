import ArrowScript.Proofs.Token.Patterns

/-!
# What the measures measure

Each function that measures a piece of the source is related to the language of what it
measures: the characters that it counts are a word of that language, and every word of
the language with which the text begins is at most as long, or at least as long where
the shortest word is looked for. A search for a closing mark that fails leaves no word
of the language at the front of the text.
-/

namespace ArrowScript.Lexing

open Computability

section Runs

variable {holds : Char → Bool} {word text rest : List Char}

theorem runLength_le : runLength holds text ≤ text.length := by
  induction text with
  | nil => exact Nat.le_refl 0
  | cons character rest inductionHypothesis =>
      simp only [runLength, List.length_cons]
      split <;> omega

/-- A run counts characters with the property only. -/
theorem holds_of_mem_take_runLength :
    ∀ character ∈ text.take (runLength holds text), holds character = true := by
  induction text with
  | nil => simp
  | cons first rest inductionHypothesis =>
      by_cases property : holds first = true
      · simpa [runLength, property] using inductionHypothesis
      · simp [runLength, property]

/-- A run is at least as long as any other beginning with the property. -/
theorem length_le_runLength (ahead : word <+: text)
    (all : ∀ character ∈ word, holds character = true) : word.length ≤ runLength holds text := by
  induction word generalizing text with
  | nil => exact Nat.zero_le _
  | cons first word inductionHypothesis =>
      obtain ⟨after, rfl⟩ := ahead
      simp only [List.mem_cons, forall_eq_or_imp] at all
      have further := inductionHypothesis ⟨after, rfl⟩ all.2
      simpa [runLength, all.1] using further

/-- A run ends at the first character without the property. -/
theorem runLength_append_cons {stop : Char} (all : ∀ character ∈ word, holds character = true)
    (ends : holds stop = false) : runLength holds (word ++ stop :: rest) = word.length := by
  induction word with
  | nil => simp [runLength, ends]
  | cons first word inductionHypothesis =>
      simp only [List.mem_cons, forall_eq_or_imp] at all
      simp [runLength, all.1, inductionHypothesis all.2]

end Runs

section Numbers

variable {word text : List Char}

/-- Digits are a nonempty run. -/
theorem mem_digits : word ∈ Pattern.digits ↔
    word ≠ [] ∧ ∀ character ∈ word, character.isDigit = true := by
  rw [Pattern.digits, Pattern.mem_oneOf_mul]
  cases word <;> simp

/-- What follows the whole digits of a number: nothing, or a point and more digits. -/
theorem mem_fraction : word ∈ 1 + Pattern.exactly "." * Pattern.digits ↔
    word = [] ∨ ∃ decimals ∈ Pattern.digits, word = '.' :: decimals := by
  simp only [Language.mem_add, Language.mem_one, Pattern.mem_exactly_mul]
  rfl

/-- A fraction is measured as its point and a run of digits, if there are any. -/
theorem fractionLength_point {rest : List Char} :
    fractionLength ('.' :: rest) =
      if runLength Char.isDigit rest = 0 then 0 else runLength Char.isDigit rest + 1 := by
  simp only [fractionLength]
  split
  · next none => rw [none, if_pos rfl]
  · next some => rw [if_neg some]

theorem take_fractionLength : fractionLength text ≤ text.length ∧
    text.take (fractionLength text) ∈ 1 + Pattern.exactly "." * Pattern.digits := by
  rw [mem_fraction]
  fun_cases fractionLength text with
  | case1 rest none => exact ⟨Nat.zero_le _, .inl rfl⟩
  | case2 rest some =>
      have bound := @runLength_le Char.isDigit rest
      refine ⟨Nat.succ_le_succ bound, .inr ⟨rest.take (runLength Char.isDigit rest), ?_, rfl⟩⟩
      refine mem_digits.mpr ⟨?_, holds_of_mem_take_runLength⟩
      intro empty
      rw [List.take_eq_nil_iff] at empty
      rcases empty with none | rfl
      · exact some none
      · exact some rfl
  | case3 => exact ⟨Nat.zero_le _, .inl rfl⟩

theorem length_le_fractionLength (ahead : word <+: text)
    (mem : word ∈ 1 + Pattern.exactly "." * Pattern.digits) :
    word.length ≤ fractionLength text := by
  rcases mem_fraction.mp mem with rfl | ⟨decimals, digits, rfl⟩
  · exact Nat.zero_le _
  · obtain ⟨after, rfl⟩ := ahead
    obtain ⟨some, all⟩ := mem_digits.mp digits
    have positive := List.length_pos_iff.mpr some
    have run : decimals.length ≤ runLength Char.isDigit (decimals ++ after) :=
      length_le_runLength (List.prefix_append _ _) all
    rw [List.cons_append, fractionLength_point, if_neg (by omega)]
    exact Nat.succ_le_succ run

end Numbers

section Strings

variable {quote : Char} {word text : List Char}

/-- What follows an opening quote: the closing one, or an escape or a plain character
with what follows it. -/
theorem untilQuote_eq : Pattern.untilQuote quote =
    Pattern.oneOf (· == quote) +
      (Pattern.escape + Pattern.plain quote) * Pattern.untilQuote quote := by
  calc Pattern.untilQuote quote
      = (1 + (Pattern.escape + Pattern.plain quote) * (Pattern.escape + Pattern.plain quote)∗) *
          Pattern.oneOf (· == quote) := by
        rw [Language.one_add_self_mul_kstar_eq_kstar, Pattern.untilQuote]
    _ = _ := by rw [add_mul, one_mul, mul_assoc, Pattern.untilQuote]

/-- The ways to go on after an opening quote, by the next characters. -/
theorem mem_untilQuote : word ∈ Pattern.untilQuote quote ↔
    word = [quote] ∨
      (∃ escaped rest, word = '\\' :: escaped :: rest ∧ escaped ≠ '\n' ∧
        rest ∈ Pattern.untilQuote quote) ∨
      ∃ character rest, word = character :: rest ∧
        (character ≠ quote ∧ character ≠ '\\' ∧ character ≠ '\n') ∧
        rest ∈ Pattern.untilQuote quote := by
  have escape : word ∈ Pattern.escape * Pattern.untilQuote quote ↔
      ∃ escaped rest, word = '\\' :: escaped :: rest ∧ escaped ≠ '\n' ∧
        rest ∈ Pattern.untilQuote quote := by
    rw [Pattern.escape, mul_assoc, Pattern.mem_exactly_mul]
    simp only [Pattern.mem_oneOf_mul, bne_iff_ne]
    constructor
    · rintro ⟨_, ⟨escaped, rest, rfl, inLine, further⟩, rfl⟩
      exact ⟨escaped, rest, rfl, inLine, further⟩
    · rintro ⟨escaped, rest, rfl, inLine, further⟩
      exact ⟨_, ⟨escaped, rest, rfl, inLine, further⟩, rfl⟩
  have plain : word ∈ Pattern.plain quote * Pattern.untilQuote quote ↔
      ∃ character rest, word = character :: rest ∧
        (character ≠ quote ∧ character ≠ '\\' ∧ character ≠ '\n') ∧
        rest ∈ Pattern.untilQuote quote := by
    rw [Pattern.plain, Pattern.mem_oneOf_mul]
    simp only [Bool.and_eq_true, bne_iff_ne, and_assoc]
  have closing : word ∈ Pattern.oneOf (· == quote) ↔ word = [quote] := by simp
  conv_lhs => rw [untilQuote_eq, add_mul, Language.mem_add, Language.mem_add]
  rw [escape, plain, closing]

/-- The closing quote ends the search. -/
theorem stringLength_quote : stringLength quote (quote :: text) = some 1 := by
  cases text <;> simp [stringLength]

/-- A plain character is passed alone. -/
theorem stringLength_plain {character : Char}
    (plain : character ≠ quote ∧ character ≠ '\\' ∧ character ≠ '\n') :
    stringLength quote (character :: text) = (· + 1) <$> stringLength quote text := by
  cases text <;> simp [stringLength, plain]

/-- A backslash is passed with the character after it. -/
theorem stringLength_escape {escaped : Char} (other : '\\' ≠ quote) (inLine : escaped ≠ '\n') :
    stringLength quote ('\\' :: escaped :: text) = (· + 2) <$> stringLength quote text := by
  simp [stringLength, other, inLine]

/-- The search stops at the closing quote of a word. -/
theorem stringLength_append {word : List Char} (text : List Char) (other : '\\' ≠ quote)
    (mem : word ∈ Pattern.untilQuote quote) :
    stringLength quote (word ++ text) = some word.length := by
  rcases mem_untilQuote.mp mem with rfl | ⟨escaped, rest, rfl, inLine, further⟩ |
    ⟨character, rest, rfl, plain, further⟩
  · exact stringLength_quote
  · have stops := stringLength_append text other further
    simp [stringLength_escape other inLine, stops]
  · have stops := stringLength_append text other further
    simp [stringLength_plain plain, stops]
termination_by word.length

/-- A string is what follows an opening quote up to the same quote. -/
theorem mem_string : word ∈ Pattern.string ↔
    ∃ quote body, word = quote :: body ∧ (quote = '"' ∨ quote = '\'') ∧
      body ∈ Pattern.untilQuote quote := by
  simp only [Pattern.string, Language.mem_add, Pattern.mem_oneOf_mul, beq_iff_eq]
  constructor
  · rintro (⟨quote, body, rfl, rfl, mem⟩ | ⟨quote, body, rfl, rfl, mem⟩)
    · exact ⟨_, body, rfl, .inl rfl, mem⟩
    · exact ⟨_, body, rfl, .inr rfl, mem⟩
  · rintro ⟨quote, body, rfl, rfl | rfl, mem⟩
    · exact .inl ⟨_, body, rfl, rfl, mem⟩
    · exact .inr ⟨_, body, rfl, rfl, mem⟩

/-- What the search counts is a word. -/
theorem take_stringLength {length : Nat} (found : stringLength quote text = some length) :
    length ≤ text.length ∧ text.take length ∈ Pattern.untilQuote quote := by
  fun_induction stringLength quote text generalizing length with
  | case1 | case3 | case5 | case6 => cases found
  | case2 | case4 =>
      cases found
      exact ⟨by simp, mem_untilQuote.mpr (.inl rfl)⟩
  | case7 escaped rest inLine other _ inductionHypothesis =>
      obtain ⟨count, counted, rfl⟩ := Option.map_eq_some_iff.mp found
      obtain ⟨bound, mem⟩ := inductionHypothesis counted
      exact ⟨by simpa using bound,
        mem_untilQuote.mpr (.inr (.inl ⟨escaped, rest.take count, rfl, inLine, mem⟩))⟩
  | case8 character next rest other inLine unescaped inductionHypothesis =>
      obtain ⟨count, counted, rfl⟩ := Option.map_eq_some_iff.mp found
      obtain ⟨bound, mem⟩ := inductionHypothesis counted
      exact ⟨by simpa using bound, mem_untilQuote.mpr
        (.inr (.inr ⟨character, _, rfl, ⟨other, unescaped, inLine⟩, mem⟩))⟩

end Strings

section Comments

variable {word text : List Char} {length : Nat}

theorem mem_lineComment : word ∈ Pattern.lineComment ↔
    ∃ body, word = '/' :: '/' :: body ∧ ∀ character ∈ body, (character != '\n') = true := by
  simp only [Pattern.lineComment, Pattern.mem_exactly_mul, Pattern.mem_oneOf_kstar]
  exact exists_congr fun body => and_comm

theorem mem_blockComment : word ∈ Pattern.blockComment ↔
    ∃ body ∈ (Pattern.oneOf fun _ => true)∗ * Pattern.exactly "*/",
      word = '/' :: '*' :: body := by
  rw [Pattern.blockComment, Pattern.mem_exactly_mul]
  rfl

/-- What follows the opening of a block comment: any text with the closing after it. -/
theorem mem_closed : word ∈ (Pattern.oneOf fun _ => true)∗ * Pattern.exactly "*/" ↔
    ∃ body, word = body ++ ['*', '/'] := by
  simp only [Language.mem_mul, Pattern.mem_oneOf_kstar, Pattern.mem_exactly]
  constructor
  · rintro ⟨body, _, _, rfl, rfl⟩
    exact ⟨body, rfl⟩
  · rintro ⟨body, rfl⟩
    exact ⟨body, by simp, _, rfl, rfl⟩

/-- What the search counts ends with the closing. -/
theorem take_blockCommentLength (found : blockCommentLength text = some length) :
    length ≤ text.length ∧
      text.take length ∈ (Pattern.oneOf fun _ => true)∗ * Pattern.exactly "*/" := by
  rw [mem_closed]
  fun_induction blockCommentLength text generalizing length with
  | case1 rest =>
      cases found
      exact ⟨by simp, [], rfl⟩
  | case2 character rest _ inductionHypothesis =>
      obtain ⟨count, counted, rfl⟩ := Option.map_eq_some_iff.mp found
      obtain ⟨bound, body, ends⟩ := inductionHypothesis counted
      exact ⟨by simpa using bound, character :: body, by simp [ends]⟩
  | case3 => cases found

/-- The search stops at the first closing. -/
theorem blockCommentLength_of_mem
    (mem : word ∈ (Pattern.oneOf fun _ => true)∗ * Pattern.exactly "*/") (ahead : word <+: text) :
    ∃ length, blockCommentLength text = some length ∧ length ≤ word.length := by
  obtain ⟨body, rfl⟩ := mem_closed.mp mem
  obtain ⟨after, rfl⟩ := ahead
  clear mem
  induction body with
  | nil => exact ⟨2, rfl, by simp⟩
  | cons character body inductionHypothesis =>
      obtain ⟨count, counted, bound⟩ := inductionHypothesis
      simp only [List.cons_append, List.length_cons]
      rw [blockCommentLength.eq_def]
      split
      · exact ⟨2, rfl, by simp⟩
      · next same =>
          cases same
          exact ⟨count + 1, by rw [counted]; rfl, Nat.succ_le_succ bound⟩
      · next none => cases none

end Comments

/-- A punctuation mark is the first of the table with which the text begins. -/
theorem punctuationAt_eq {first : Char} {rest : List Char} :
    punctuationAt first rest =
      (marks.find? fun mark => mark.1.toList.isPrefixOf (first :: rest)).map
        fun mark => (mark.2, mark.1.toList.length - 1) := by
  unfold punctuationAt
  split
  case h_1 =>
      cases rest with
      | nil => simp [marks, List.find?, List.isPrefixOf]
      | cons next rest =>
          by_cases arrow : next = '>'
          · simp [marks, List.isPrefixOf, arrow]
          · simp [marks, List.isPrefixOf, arrow, beq_eq_false_iff_ne.mpr (Ne.symm arrow)]
  case h_16 =>
      -- Every mark of the table begins with one of the characters excluded here.
      symm
      rw [Option.map_eq_none_iff, List.find?_eq_none]
      simp only [marks, List.mem_cons, List.not_mem_nil, or_false, List.isPrefixOf_iff_prefix,
        forall_eq_or_imp, String.reduceToList, List.cons_prefix_cons, not_and, List.nil_prefix,
        and_true, forall_eq]
      grind
  all_goals simp [marks, List.find?, List.isPrefixOf]

end ArrowScript.Lexing
