import Mathlib.Computability.Language
import ArrowScript.Token.Lexing

/-!
# The terminals as languages

A terminal is given by the language of its words, written with the operations on
languages as the lexical grammar writes it with regular expressions. A terminal takes
the longest of its words with which a text begins. Only a block comment ends as early
as it can.

The list `terminals` holds them in the order in which they are tried. Two terminals
match at one position only where a reserved word is also an identifier, and where an
equals sign begins an arrow: the terminals without a bound on their length come first,
and an arrow comes before an equals sign. All other pairs are told apart by the first
character of their words, for which `Opener` has the classes, or have one fixed text
each.
-/

namespace ArrowScript.Lexing

open Computability

namespace Pattern

/-- The texts of one character with a given property. -/
def oneOf (holds : Char → Bool) : Language Char :=
  {text | ∃ character, holds character = true ∧ text = [character]}

/-- The language of a single word. -/
def exactly (word : String) : Language Char := {word.toList}

/-- A letter or an underscore, then letters, digits and underscores. -/
def identifier : Language Char := oneOf isNameStart * (oneOf isNamePart)∗

/-- At least one decimal digit. -/
def digits : Language Char := oneOf Char.isDigit * (oneOf Char.isDigit)∗

/-- Digits, perhaps with a point and more digits. -/
def number : Language Char := digits * (1 + exactly "." * digits)

/-- A backslash with the character after it, which is not a line break. -/
def escape : Language Char := exactly "\\" * oneOf (· != '\n')

/-- A character that stands for itself between two quotes. -/
def plain (quote : Char) : Language Char :=
  oneOf fun character => character != quote && character != '\\' && character != '\n'

/-- Escapes and plain characters up to the closing quote. -/
def untilQuote (quote : Char) : Language Char :=
  (escape + plain quote)∗ * oneOf (· == quote)

/-- A text between double or single quotes. -/
def string : Language Char :=
  oneOf (· == '"') * untilQuote '"' + oneOf (· == '\'') * untilQuote '\''

/-- Two slashes and the rest of the line. -/
def lineComment : Language Char := exactly "//" * (oneOf (· != '\n'))∗

/-- Any text between the marks of a block comment. -/
def blockComment : Language Char := exactly "/*" * ((oneOf fun _ => true)∗ * exactly "*/")

/-- At least one blank. -/
def whitespace : Language Char := oneOf isBlank * (oneOf isBlank)∗

section Membership

variable {holds : Char → Bool} {text : List Char}

@[simp] theorem mem_oneOf :
    text ∈ oneOf holds ↔ ∃ character, holds character = true ∧ text = [character] := Iff.rfl

@[simp] theorem mem_exactly {word : String} : text ∈ exactly word ↔ text = word.toList := Iff.rfl

/-- Repetitions of a class of characters are the texts over that class. -/
@[simp] theorem mem_oneOf_kstar :
    text ∈ (oneOf holds)∗ ↔ ∀ character ∈ text, holds character = true := by
  rw [Language.mem_kstar]
  constructor
  · rintro ⟨parts, rfl, members⟩ character among
    obtain ⟨part, chosen, inside⟩ := List.mem_flatten.mp among
    obtain ⟨single, holds, rfl⟩ := members part chosen
    exact List.mem_singleton.mp inside ▸ holds
  · intro all
    refine ⟨text.map ([·]), by simp [← List.flatMap_def], ?_⟩
    intro part among
    obtain ⟨character, inside, rfl⟩ := List.mem_map.mp among
    exact ⟨character, all character inside, rfl⟩

/-- A word that begins with one class of characters and goes on with another. -/
theorem mem_oneOf_mul {language : Language Char} :
    text ∈ oneOf holds * language ↔
      ∃ first rest, text = first :: rest ∧ holds first = true ∧ rest ∈ language := by
  simp only [Language.mem_mul, mem_oneOf]
  constructor
  · rintro ⟨_, ⟨first, holds, rfl⟩, rest, further, rfl⟩
    exact ⟨first, rest, rfl, holds, further⟩
  · rintro ⟨first, rest, rfl, holds, further⟩
    exact ⟨[first], ⟨first, holds, rfl⟩, rest, further, rfl⟩

/-- A word that begins with a fixed text. -/
theorem mem_exactly_mul {word : String} {language : Language Char} :
    text ∈ exactly word * language ↔ ∃ rest ∈ language, text = word.toList ++ rest := by
  simp only [Language.mem_mul, mem_exactly]
  constructor
  · rintro ⟨_, rfl, rest, further, rfl⟩
    exact ⟨rest, further, rfl⟩
  · rintro ⟨rest, further, rfl⟩
    exact ⟨_, rfl, rest, further, rfl⟩

end Membership

end Pattern

/-! ## First characters -/

/-- The classes of characters that decide what may begin at a position. -/
inductive Opener where
  | blank | letter | digit | quote | slash | mark
  deriving DecidableEq, Repr

/-- The class of a character. -/
def Opener.of (character : Char) : Opener :=
  if isBlank character then .blank
  else if isNameStart character then .letter
  else if character.isDigit then .digit
  else if character = '"' ∨ character = '\'' then .quote
  else if character = '/' then .slash
  else .mark

/-- The code points of letters and of the underscore. -/
theorem isNameStart_iff {character : Char} : isNameStart character = true ↔
    (65 ≤ character.toNat ∧ character.toNat ≤ 90) ∨
      (97 ≤ character.toNat ∧ character.toNat ≤ 122) ∨ character.toNat = 95 := by
  delta isNameStart Char.isAlpha Char.isUpper Char.isLower
  simp only [Bool.or_eq_true, Bool.and_eq_true, decide_eq_true_eq, beq_iff_eq, ← Char.toNat_inj,
    UInt32.le_iff_toNat_le, ge_iff_le, or_assoc]
  rfl

/-- The visible characters of the first block are no blanks. -/
theorem isBlank_of_visible {character : Char}
    (visible : 33 ≤ character.toNat ∧ character.toNat ≤ 126) : isBlank character = false := by
  simp only [isBlank, Bool.or_eq_false_iff, Bool.and_eq_false_iff, decide_eq_false_iff_not,
    beq_eq_false_iff_ne]
  omega

theorem Opener.of_isBlank {character : Char} (blank : isBlank character = true) :
    Opener.of character = .blank := by
  simp [Opener.of, blank]

/-- A letter is no blank. -/
theorem Opener.of_isNameStart {character : Char} (start : isNameStart character = true) :
    Opener.of character = .letter := by
  have code := isNameStart_iff.mp start
  have blank := @isBlank_of_visible character (by omega)
  simp [Opener.of, blank, start]

/-- A digit is no blank and no letter. -/
theorem Opener.of_isDigit {character : Char} (digit : character.isDigit = true) :
    Opener.of character = .digit := by
  have code : 48 ≤ character.toNat ∧ character.toNat ≤ 57 := Char.isDigit_iff_toNat.mp digit
  have blank := @isBlank_of_visible character (by omega)
  have start : ¬ isNameStart character = true := by
    rw [isNameStart_iff]
    omega
  simp [Opener.of, blank, start, digit]

namespace Opener

variable {opener : Opener} {language other : Language Char}

/-- Every word of a language begins with a character of a class. -/
def Begins (opener : Opener) (language : Language Char) : Prop :=
  ∀ word ∈ language, ∃ first rest, word = first :: rest ∧ Opener.of first = opener

theorem Begins.oneOf {holds : Char → Bool}
    (same : ∀ character, holds character = true → Opener.of character = opener) :
    opener.Begins (Pattern.oneOf holds) := by
  rintro word ⟨character, holds, rfl⟩
  exact ⟨character, [], rfl, same character holds⟩

theorem Begins.exactly {word : String} (head : word.toList.head?.map Opener.of = some opener) :
    opener.Begins (Pattern.exactly word) := by
  rintro text rfl
  obtain ⟨first, ahead, same⟩ := Option.map_eq_some_iff.mp head
  obtain ⟨rest, split⟩ := List.head?_eq_some_iff.mp ahead
  exact ⟨first, rest, split, same⟩

theorem Begins.mul (begins : opener.Begins language) : opener.Begins (language * other) := by
  intro word mem
  obtain ⟨front, inside, back, _, rfl⟩ := Language.mem_mul.mp mem
  obtain ⟨first, rest, rfl, same⟩ := begins front inside
  exact ⟨first, rest ++ back, rfl, same⟩

theorem Begins.add (left : opener.Begins language) (right : opener.Begins other) :
    opener.Begins (language + other) := by
  intro word mem
  rcases (Language.mem_add _ _ _).mp mem with inside | inside
  · exact left word inside
  · exact right word inside

end Opener

/-! ## The table of terminals -/

/-- A terminal of the lexical grammar. The words of a terminal without a kind separate
lexemes. -/
structure Terminal where
  kind : Option TokenKind
  language : Language Char
  /-- The class of the characters with which its words begin. -/
  opener : Opener
  /-- Whether the shortest word is taken and not the longest. -/
  early : Bool

namespace Terminal

/-- The terminal with a single word. -/
def fixed (opener : Opener) (entry : String × TokenKind) : Terminal :=
  ⟨some entry.2, Pattern.exactly entry.1, opener, false⟩

def string : Terminal := ⟨some .string, Pattern.string, .quote, false⟩
def identifier : Terminal := ⟨some .identifier, Pattern.identifier, .letter, false⟩
def number : Terminal := ⟨some .number, Pattern.number, .digit, false⟩
def blockComment : Terminal := ⟨none, Pattern.blockComment, .slash, true⟩
def lineComment : Terminal := ⟨none, Pattern.lineComment, .slash, false⟩
def whitespace : Terminal := ⟨none, Pattern.whitespace, .blank, false⟩

end Terminal

/-- The punctuation marks. -/
def marks : List (String × TokenKind) :=
  [("=>", .arrow), ("?", .question), (":", .colon), ("=", .equal), ("|", .pipe),
    ("<", .lessThan), (">", .greaterThan), ("+", .plus), ("(", .leftParen), (")", .rightParen),
    ("\x7b", .leftCurly), ("\x7d", .rightCurly), ("[", .leftBracket), ("]", .rightBracket),
    (",", .comma), (";", .semicolon)]

/-- The terminals of unbounded length. -/
def patterns : List Terminal :=
  [.string, .identifier, .number, .blockComment, .lineComment, .whitespace]

/-- Every terminal, in the order in which they are tried. -/
def terminals : List Terminal :=
  patterns ++ TokenKind.words.map (.fixed .letter) ++ marks.map (.fixed .mark)

namespace Terminal

variable {terminal : Terminal} {word text : List Char}

/-- A word of the terminal stands at the front of a text. -/
def Matches (terminal : Terminal) (text : List Char) : Prop :=
  ∃ word ∈ terminal.language, word <+: text

/-- What a terminal takes from the front of a text: it is the first to match there, and
the word is the longest of its words, or the shortest if it ends early. -/
structure Takes (terminal : Terminal) (word text : List Char) : Prop where
  first : ∃ before after, terminals = before ++ terminal :: after ∧
    ∀ earlier ∈ before, ¬ earlier.Matches text
  mem : word ∈ terminal.language
  extent : ∀ other ∈ terminal.language, other <+: text →
    if terminal.early then word.length ≤ other.length else other.length ≤ word.length

theorem fixed_letter_mem {entry : String × TokenKind} (listed : entry ∈ TokenKind.words) :
    fixed .letter entry ∈ terminals :=
  List.mem_append_left _ (List.mem_append_right _ (List.mem_map_of_mem listed))

theorem fixed_mark_mem {entry : String × TokenKind} (listed : entry ∈ marks) :
    fixed .mark entry ∈ terminals :=
  List.mem_append_right _ (List.mem_map_of_mem listed)

@[simp] theorem matches_fixed {opener : Opener} {entry : String × TokenKind} :
    (fixed opener entry).Matches text ↔ entry.1.toList <+: text := by
  simp [Matches, fixed]

theorem mem_terminals : terminal ∈ terminals ↔
    (terminal = .string ∨ terminal = .identifier ∨ terminal = .number ∨
      terminal = .blockComment ∨ terminal = .lineComment ∨ terminal = .whitespace) ∨
    (∃ entry ∈ TokenKind.words, terminal = .fixed .letter entry) ∨
    ∃ entry ∈ marks, terminal = .fixed .mark entry := by
  simp only [terminals, patterns, List.mem_append, List.mem_cons, List.not_mem_nil, or_false,
    List.mem_map, or_assoc, @eq_comm Terminal (fixed _ _)]

theorem eq_string (among : terminal ∈ terminals) (opener : terminal.opener = .quote) :
    terminal = .string := by
  rcases mem_terminals.mp among with (rfl | rfl | rfl | rfl | rfl | rfl) | ⟨entry, _, rfl⟩ |
    ⟨entry, _, rfl⟩
  all_goals first | rfl | cases opener

theorem eq_comment (among : terminal ∈ terminals) (opener : terminal.opener = .slash) :
    terminal = .blockComment ∨ terminal = .lineComment := by
  rcases mem_terminals.mp among with (rfl | rfl | rfl | rfl | rfl | rfl) | ⟨entry, _, rfl⟩ |
    ⟨entry, _, rfl⟩
  all_goals first | exact .inl rfl | exact .inr rfl | cases opener

theorem eq_mark (among : terminal ∈ terminals) (opener : terminal.opener = .mark) :
    ∃ entry ∈ marks, terminal = .fixed .mark entry := by
  rcases mem_terminals.mp among with (rfl | rfl | rfl | rfl | rfl | rfl) | ⟨entry, _, rfl⟩ |
    ⟨entry, listed, rfl⟩
  all_goals first | exact ⟨entry, listed, rfl⟩ | cases opener

/-- The words of a terminal begin as its class says. -/
theorem opens (among : terminal ∈ terminals) : terminal.opener.Begins terminal.language := by
  rcases mem_terminals.mp among with (rfl | rfl | rfl | rfl | rfl | rfl) | ⟨entry, listed, rfl⟩ |
    ⟨entry, listed, rfl⟩
  · have quotes {quote : Char} (opens : Opener.of quote = .quote) :
        Opener.Begins .quote (Pattern.oneOf (· == quote)) :=
      .oneOf fun _ same => beq_iff_eq.mp same ▸ opens
    exact .add (.mul (quotes (by decide))) (.mul (quotes (by decide)))
  · exact .mul (.oneOf fun _ => Opener.of_isNameStart)
  · exact .mul (.mul (.oneOf fun _ => Opener.of_isDigit))
  · exact .mul (.exactly (by decide))
  · exact .mul (.exactly (by decide))
  · exact .mul (.oneOf fun _ => Opener.of_isBlank)
  · have words : ∀ entry ∈ TokenKind.words, entry.1.toList.head?.map Opener.of = some .letter := by
      decide
    exact .exactly (words entry listed)
  · have punctuation : ∀ entry ∈ marks, entry.1.toList.head?.map Opener.of = some .mark := by
      decide
    exact .exactly (punctuation entry listed)

/-- A terminal of another class does not match. -/
theorem not_matches {first : Char} {rest : List Char} (among : terminal ∈ terminals)
    (other : terminal.opener ≠ Opener.of first) : ¬ terminal.Matches (first :: rest) := by
  rintro ⟨word, mem, ahead⟩
  obtain ⟨first', rest', rfl, same⟩ := opens among word mem
  obtain ⟨rfl, _⟩ := List.cons_prefix_cons.mp ahead
  exact other same.symm

end Terminal

end ArrowScript.Lexing
