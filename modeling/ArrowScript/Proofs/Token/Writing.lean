import Mathlib.Data.List.TakeWhile
import ArrowScript.Proofs.Token.Layout

/-!
# Tokens can be written down and read again

A list of tokens has a canonical text: words and punctuation marks as they are spelled,
identifiers by their name, integers in decimal, texts between quotes of either kind, and
one space between two tokens. Between quotes only a backslash, the enclosing quote and a
line break are escaped; everything else stands for itself.

Reading the canonical text gives back the tokens. One lemma for each class of lexemes
says that the piece at its first character is the whole lexeme, whatever is behind the
space, and that its conversion is the value that was written. The text between quotes is
met twice, by the search for the closing quote and by the replacement of the escapes;
both go through it one written character at a time.
-/

namespace ArrowScript

open Lexing

/-! ## What is written -/

/-- A kind of quotes. -/
inductive Quote where
  | double | single
  deriving DecidableEq, Repr

namespace Quote

/-- The character that opens and closes a string. -/
def mark : Quote → Char
  | double => '"'
  | single => '\''

/-- How a character is written between quotes. -/
def escape (quote : Quote) (character : Char) : List Char :=
  if character = '\\' ∨ character = quote.mark then ['\\', character]
  else if character = '\n' then ['\\', 'n']
  else [character]

end Quote

/-- A lexeme that can be written: a reserved word or a punctuation mark of the tables, an
identifier that is no reserved word, a natural number, or a text in a kind of quotes. -/
inductive Lexeme where
  | word (entry : String × TokenKind) (listed : entry ∈ TokenKind.words)
  | mark (entry : String × TokenKind) (listed : entry ∈ marks)
  | identifier (name : String) (shaped : name.toList ∈ Pattern.identifier)
    (free : ∀ entry ∈ TokenKind.words, name ≠ entry.1)
  | number (value : Nat)
  | string (quote : Quote) (text : String)

/-- The value that goes with a fixed text: a truth value for the two words that name one,
and the text itself for all others. -/
def fixedValue : String × TokenKind → Value
  | (_, .trueKeyword) => .boolean true
  | (_, .falseKeyword) => .boolean false
  | (text, _) => .text text

namespace Lexeme

/-- The kind of the token. -/
def kind : Lexeme → TokenKind
  | word entry _ | mark entry _ => entry.2
  | identifier _ _ _ => .identifier
  | number _ => .number
  | string _ _ => .string

/-- The value of the token. -/
def value : Lexeme → Value
  | word entry _ | mark entry _ => fixedValue entry
  | identifier name _ _ => .text name
  | number value => .number (.int value)
  | string _ text => .text text

/-- The text of the token. -/
def written : Lexeme → String
  | word entry _ | mark entry _ => entry.1
  | identifier name _ _ => name
  | number value => toString value
  | string quote text =>
    String.ofList (quote.mark :: (text.toList.flatMap quote.escape ++ [quote.mark]))

end Lexeme

/-! ## One lexeme -/

namespace Lexing

/-- What is behind a lexeme: the end of the source, or a space. -/
def Separated (text : List Char) : Prop := ∀ next ∈ text.head?, next = ' '

/-- A word in front of a text is a lexeme: the piece at its first character is the whole
word, and the word is converted to the value. -/
structure Reads (kind : TokenKind) (value : Value) (word text : List Char) : Prop where
  piece : ∃ first tail, word = first :: tail ∧ Opener.of first ≠ .blank ∧
    pieceAt first (tail ++ text) = some (.lexeme kind, tail.length)
  converted : valueOf kind word = value

variable {text : List Char}

/-- The class of the first character decides where to look for the end of a piece. -/
theorem pieceAt_eq (first : Char) (rest : List Char) :
    pieceAt first rest =
      match Opener.of first with
      | .blank => some (.gap, runLength isBlank rest)
      | .letter =>
        some (.lexeme (.ofWord (String.ofList (first :: rest.take (runLength isNamePart rest)))),
          runLength isNamePart rest)
      | .digit =>
        some (.lexeme .number, runLength Char.isDigit rest +
          fractionLength (rest.drop (runLength Char.isDigit rest)))
      | .quote => (stringLength first rest).map fun length => (.lexeme .string, length)
      | .slash => (commentLength rest).map fun length => (.gap, length)
      | .mark => (punctuationAt first rest).map fun (kind, length) => (.lexeme kind, length) := by
  unfold pieceAt Opener.of
  split_ifs <;> rfl

/-- A run of characters with a property ends at a separator without it. -/
theorem runLength_separated {holds : Char → Bool} {word : List Char} (separated : Separated text)
    (all : ∀ character ∈ word, holds character = true) (ends : holds ' ' = false) :
    runLength holds (word ++ text) = word.length := by
  cases text with
  | nil =>
    have covers := length_le_runLength (List.prefix_append word []) all
    have bound := @runLength_le holds (word ++ [])
    rw [List.append_nil] at covers bound ⊢
    exact Nat.le_antisymm bound covers
  | cons next rest =>
    obtain rfl := separated next rfl
    exact runLength_append_cons all ends

/-! ### Words and marks -/

/-- A word of the shape of an identifier is taken as a whole. -/
theorem reads_shaped {word : List Char} (shaped : word ∈ Pattern.identifier)
    (separated : Separated text) :
    Reads (.ofWord (String.ofList word)) (valueOf (.ofWord (String.ofList word)) word) word
      text := by
  obtain ⟨first, tail, rfl, starts, inside⟩ := Pattern.mem_oneOf_mul.mp shaped
  have opener := Opener.of_isNameStart starts
  have run := runLength_separated separated (Pattern.mem_oneOf_kstar.mp inside) (by decide)
  refine ⟨⟨first, tail, rfl, by simp [opener], ?_⟩, rfl⟩
  simp [pieceAt_eq, opener, run]

/-- The words of the table are taken as a whole. -/
theorem reads_word {entry : String × TokenKind} (listed : entry ∈ TokenKind.words)
    (separated : Separated text) : Reads entry.2 (fixedValue entry) entry.1.toList text := by
  have letters : ∀ entry ∈ TokenKind.words, entry.1.toList.head?.map isNameStart = some true ∧
      entry.1.toList.tail.all isNamePart = true := by decide
  have converted : ∀ entry ∈ TokenKind.words, TokenKind.ofWord entry.1 = entry.2 ∧
      valueOf entry.2 entry.1.toList = fixedValue entry := by decide
  have shaped : entry.1.toList ∈ Pattern.identifier := by
    obtain ⟨begins, inside⟩ := letters entry listed
    obtain ⟨first, ahead, starts⟩ := Option.map_eq_some_iff.mp begins
    obtain ⟨tail, split⟩ := List.head?_eq_some_iff.mp ahead
    rw [split, List.tail_cons] at inside
    exact Pattern.mem_oneOf_mul.mpr
      ⟨first, tail, split, starts, Pattern.mem_oneOf_kstar.mpr (List.all_eq_true.mp inside)⟩
  have reads := reads_shaped shaped separated
  rwa [String.ofList_toList, (converted entry listed).1, (converted entry listed).2] at reads

/-- An identifier is taken as a whole. -/
theorem reads_identifier {name : String} (shaped : name.toList ∈ Pattern.identifier)
    (free : ∀ entry ∈ TokenKind.words, name ≠ entry.1) (separated : Separated text) :
    Reads .identifier (.text name) name.toList text := by
  have unlisted : TokenKind.words.lookup name = none :=
    List.lookup_eq_none_iff.mpr fun entry listed => by simpa using free entry listed
  have converted : valueOf .identifier name.toList = .text name :=
    congrArg Value.text String.ofList_toList
  have reads := reads_shaped shaped separated
  rwa [String.ofList_toList, TokenKind.ofWord, unlisted, Option.getD_none, converted] at reads

/-- Whether an equals sign begins an arrow is decided before the separator. -/
theorem punctuationAt_separated {first : Char} {tail : List Char} (separated : Separated text) :
    punctuationAt first (tail ++ text) = punctuationAt first tail := by
  have ahead : (tail ++ text).head? = some '>' ↔ tail.head? = some '>' := by
    cases tail with
    | nil =>
      rw [List.nil_append, List.head?_nil]
      exact ⟨fun arrow => absurd (separated '>' arrow) (by decide), nofun⟩
    | cons next rest => rfl
  unfold punctuationAt
  simp only [ahead]

/-- A punctuation mark is taken as a whole. -/
theorem reads_mark {entry : String × TokenKind} (listed : entry ∈ marks)
    (separated : Separated text) : Reads entry.2 (fixedValue entry) entry.1.toList text := by
  have opens : ∀ entry ∈ marks, entry.1.toList.head?.map (fun first =>
      (Opener.of first, punctuationAt first entry.1.toList.tail)) =
        some (.mark, some (entry.2, entry.1.toList.tail.length)) := by decide
  have converted : ∀ entry ∈ marks, valueOf entry.2 entry.1.toList = fixedValue entry := by decide
  obtain ⟨first, ahead, begins⟩ := Option.map_eq_some_iff.mp (opens entry listed)
  obtain ⟨opener, found⟩ := Prod.mk.inj begins
  obtain ⟨tail, split⟩ := List.head?_eq_some_iff.mp ahead
  rw [split, List.tail_cons] at found
  refine ⟨⟨first, tail, split, by simp [opener], ?_⟩, converted entry listed⟩
  simp [pieceAt_eq, opener, punctuationAt_separated separated, found]

/-! ### Numbers -/

/-- The digits of a number are its positional notation. -/
theorem digitsValue_toDigits (number : Nat) : digitsValue (Nat.toDigits 10 number) = number :=
  Nat.ofDigitChars_toDigits (by decide) (by decide)

/-- There is no fraction before a separator. -/
theorem fractionLength_separated (separated : Separated text) : fractionLength text = 0 := by
  cases text with
  | nil => rfl
  | cons next rest =>
    obtain rfl := separated next rfl
    rfl

/-- A number in decimal is taken as a whole. -/
theorem reads_number (number : Nat) (separated : Separated text) :
    Reads .number (.number (.int number)) (Nat.toDigits 10 number) text := by
  have digits : ∀ digit ∈ Nat.toDigits 10 number, digit.isDigit = true :=
    fun _ => Nat.isDigit_of_mem_toDigits (by decide) (by decide)
  have pointless : ∀ digit ∈ Nat.toDigits 10 number, (digit != '.') = true := by
    intro digit member
    rw [bne_iff_ne]
    rintro rfl
    exact absurd (digits '.' member) (by decide)
  constructor
  · obtain ⟨first, tail, split⟩ :=
      List.exists_cons_of_ne_nil (Nat.toDigits_ne_nil (b := 10) (n := number))
    rw [split, List.forall_mem_cons] at digits
    have opener := Opener.of_isDigit digits.1
    have run := runLength_separated separated digits.2 (by decide)
    refine ⟨first, tail, split, by simp [opener], ?_⟩
    simp [pieceAt_eq, opener, run, fractionLength_separated separated]
  · rw [valueOf, numberValue, List.takeWhile_eq_self_iff.mpr pointless,
      List.dropWhile_eq_nil_iff.mpr pointless, digitsValue_toDigits]

/-! ### Texts between quotes -/

section Quotes

variable (quote : Quote)

/-- A written character is passed by the search for the closing quote. -/
theorem escape_mem_untilQuote (character : Char) {rest : List Char}
    (further : rest ∈ Pattern.untilQuote quote.mark) :
    quote.escape character ++ rest ∈ Pattern.untilQuote quote.mark := by
  rw [mem_untilQuote]
  unfold Quote.escape
  split_ifs with escaped lineBreak
  · refine .inr (.inl ⟨character, rest, rfl, ?_, further⟩)
    rintro rfl
    cases quote <;> simp [Quote.mark] at escaped
  · exact .inr (.inl ⟨'n', rest, rfl, by decide, further⟩)
  · rw [not_or] at escaped
    exact .inr (.inr ⟨character, rest, rfl, ⟨escaped.2, escaped.1, lineBreak⟩, further⟩)

/-- A written text ends at the closing quote behind it, and not before. -/
theorem written_mem_untilQuote (characters : List Char) :
    characters.flatMap quote.escape ++ [quote.mark] ∈ Pattern.untilQuote quote.mark := by
  induction characters with
  | nil => exact mem_untilQuote.mpr (.inl rfl)
  | cons character rest inductionHypothesis =>
    rw [List.flatMap_cons, List.append_assoc]
    exact escape_mem_untilQuote quote character inductionHypothesis

/-- A written character is read back as itself. -/
theorem decodeEscapes_escape (character : Char) (rest : List Char) :
    decodeEscapes (quote.escape character ++ rest) = character :: decodeEscapes rest := by
  unfold Quote.escape
  split_ifs with escaped lineBreak
  · have itself : escapedCharacter character = character := by
      rcases escaped with rfl | rfl
      · rfl
      · cases quote <;> rfl
    change escapedCharacter character :: decodeEscapes rest = _
    rw [itself]
  · rw [lineBreak]
    rfl
  · rw [not_or] at escaped
    rw [List.singleton_append, decodeEscapes]
    rintro _ _ rfl
    exact absurd rfl escaped.1

/-- A written text is read back as itself. -/
theorem decodeEscapes_flatMap (characters : List Char) :
    decodeEscapes (characters.flatMap quote.escape) = characters := by
  induction characters with
  | nil => rfl
  | cons character rest inductionHypothesis =>
    rw [List.flatMap_cons, decodeEscapes_escape, inductionHypothesis]

/-- A text between quotes is taken as a whole, whatever is in it and behind it. -/
theorem reads_string (content : String) :
    Reads .string (.text content)
      (quote.mark :: (content.toList.flatMap quote.escape ++ [quote.mark])) text := by
  have opener : Opener.of quote.mark = .quote := by cases quote <;> decide
  have closed := stringLength_append text (by cases quote <;> decide)
    (written_mem_untilQuote quote content.toList)
  constructor
  · refine ⟨_, _, rfl, by simp [opener], ?_⟩
    rw [pieceAt_eq, opener]
    simp only [closed, Option.map_some]
  · change Value.text (decodeString _) = _
    rw [decodeString, List.tail_cons, List.dropLast_concat, decodeEscapes_flatMap,
      String.ofList_toList]

end Quotes

end Lexing

namespace Lexeme

/-- Every lexeme is taken as a whole before a separator, and read back as it was meant. -/
theorem reads (lexeme : Lexeme) {text : List Char} (separated : Separated text) :
    Reads lexeme.kind lexeme.value lexeme.written.toList text := by
  cases lexeme with
  | word entry listed => exact reads_word listed separated
  | mark entry listed => exact reads_mark listed separated
  | identifier name shaped free => exact reads_identifier shaped free separated
  | number value =>
    rw [written, Nat.toString_eq_repr, Nat.repr_eq_ofList_toDigits, String.toList_ofList]
    exact reads_number value separated
  | string quote content =>
    rw [written, String.toList_ofList]
    exact reads_string quote content

end Lexeme

/-! ## The whole text -/

namespace Lexeme

/-- The canonical text of several lexemes. -/
def writtenAll (lexemes : List Lexeme) : String := " ".intercalate (lexemes.map written)

/-- What is written behind a lexeme: each further one after a space. -/
def behind (lexemes : List Lexeme) : List Char :=
  lexemes.flatMap fun lexeme => ' ' :: lexeme.written.toList

/-- A lexeme is followed by the end or by a space. -/
theorem separated_behind (lexemes : List Lexeme) : Separated (behind lexemes) := by
  cases lexemes with
  | nil => nofun
  | cons lexeme rest =>
    intro next ahead
    exact (Option.mem_some.mp ahead).symm

/-- The canonical text is the first lexeme with the others behind it. -/
theorem toList_writtenAll (lexeme : Lexeme) (rest : List Lexeme) :
    (writtenAll (lexeme :: rest)).toList = lexeme.written.toList ++ behind rest := by
  induction rest generalizing lexeme with
  | nil => simp [writtenAll, behind]
  | cons second rest inductionHypothesis =>
    have further := inductionHypothesis second
    rw [writtenAll, String.toList_intercalate] at further ⊢
    simp only [List.map_cons] at further ⊢
    rw [List.intercalate_cons_cons, further]
    simp [behind]

end Lexeme

namespace Lexing

variable {offset : Nat} {kind : TokenKind} {value : Value} {word text : List Char}

/-- The walk adds the token of a word that is read as one. -/
theorem tokensFrom_reads (reads : Reads kind value word text) :
    tokensFrom offset 0 (word ++ text) =
      (⟨kind, value, offset⟩ :: ·) <$> tokensFrom (offset + word.length) 0 text := by
  obtain ⟨first, tail, rfl, -, piece⟩ := reads.piece
  rw [List.cons_append, tokensFrom_zero, piece]
  simp only [List.take_left, reads.converted]
  rw [tokensFrom_word (by simp), List.take_left, List.drop_left]

/-- The walk passes the space before a word. -/
theorem tokensFrom_space (reads : Reads kind value word text) :
    tokensFrom offset 0 (' ' :: (word ++ text)) = tokensFrom (offset + 1) 0 (word ++ text) := by
  obtain ⟨first, tail, rfl, visible, -⟩ := reads.piece
  have stops : isBlank first = false := by
    rw [← Bool.not_eq_true]
    exact fun blank => visible (Opener.of_isBlank blank)
  have piece : pieceAt ' ' (first :: tail ++ text) = some (.gap, 0) := by
    change some (Piece.gap, runLength isBlank (first :: (tail ++ text))) = _
    rw [runLength, stops, if_neg Bool.false_ne_true]
  rw [tokensFrom_zero, piece]

/-- The answer of the lexer on a text at an offset: the tokens of the lexemes, and the mark of
the end of the text. -/
def Lexes (lexemes : List Lexeme) (offset : Nat) (text : List Char) : Prop :=
  ∃ tokens, tokensFrom offset 0 text =
      .ok (tokens ++ [.atEnd (offset + text.length : Nat)]) ∧
    tokens.map (fun token => (token.kind, token.value)) =
      lexemes.map fun lexeme => (lexeme.kind, lexeme.value)

/-- A lexeme in front of a text that is lexed. -/
theorem Lexes.cons {lexeme : Lexeme} {lexemes : List Lexeme} (separated : Separated text)
    (further : Lexes lexemes (offset + lexeme.written.toList.length) text) :
    Lexes (lexeme :: lexemes) offset (lexeme.written.toList ++ text) := by
  obtain ⟨tokens, walked, same⟩ := further
  refine ⟨⟨lexeme.kind, lexeme.value, offset⟩ :: tokens, ?_, by simp [same]⟩
  rw [tokensFrom_reads (lexeme.reads separated), walked, List.length_append, Nat.add_assoc]
  rfl

/-- What is written behind a lexeme is lexed. -/
theorem lexes_behind (lexemes : List Lexeme) (offset : Nat) :
    Lexes lexemes offset (Lexeme.behind lexemes) := by
  induction lexemes generalizing offset with
  | nil => exact ⟨[], rfl, rfl⟩
  | cons lexeme rest inductionHypothesis =>
    have separated := Lexeme.separated_behind rest
    have further : Lexes (lexeme :: rest) (offset + 1)
        (lexeme.written.toList ++ Lexeme.behind rest) := .cons separated (inductionHypothesis _)
    obtain ⟨tokens, walked, same⟩ := further
    refine ⟨tokens, ?_, same⟩
    change tokensFrom offset 0 (' ' :: (lexeme.written.toList ++ Lexeme.behind rest)) =
      .ok (tokens ++ [.atEnd (offset +
        (' ' :: (lexeme.written.toList ++ Lexeme.behind rest)).length : Nat)])
    rw [tokensFrom_space (lexeme.reads separated), walked, List.length_cons, Nat.add_assoc,
      Nat.add_comm 1]

end Lexing

/-- Any list of lexemes, written with one space between two of them, is tokenized to tokens of
their kinds and values in their order, and the mark of the end of the text. -/
theorem tokenize_written (lexemes : List Lexeme) :
    ∃ tokens, tokenize (Lexeme.writtenAll lexemes) =
        .ok (tokens ++ [.atEnd (Lexeme.writtenAll lexemes).length]) ∧
      tokens.map (fun token => (token.kind, token.value)) =
        lexemes.map fun lexeme => (lexeme.kind, lexeme.value) := by
  cases lexemes with
  | nil => exact ⟨[], rfl, rfl⟩
  | cons lexeme rest =>
    have lexes : Lexes (lexeme :: rest) 0 (lexeme.written.toList ++ Lexeme.behind rest) :=
      .cons (Lexeme.separated_behind rest) (lexes_behind rest _)
    rw [← Lexeme.toList_writtenAll] at lexes
    obtain ⟨tokens, walked, same⟩ := lexes
    refine ⟨tokens, ?_, same⟩
    rw [tokenize, walked, Nat.zero_add, String.length_toList]

/-- Quotes of both kinds, a backslash before the closing quote, a line break and what looks
like a comment. -/
example : (Lexeme.string .single "it's \"/*\"\n\\").written = "'it\\'s \"/*\"\\n\\\\'" := by
  decide

end ArrowScript
