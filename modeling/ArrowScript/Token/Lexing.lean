import ArrowScript.Token
import ArrowScript.Problem

/-!
# From source text to tokens

At every position the first character decides which class of piece may begin there;
at most one class matches, and it takes as many characters as its pattern allows.
Blanks and comments separate lexemes and leave no token.

The pieces are measured by `pieceAt`, which answers with the number of characters
after the first one. `tokensFrom` walks over the characters once and counts down the
rest of the current piece, so it recurses on the text itself. A character at which no
piece begins ends the walk with a diagnostic.

Offsets count characters. The last token marks the end of the source.
-/

namespace ArrowScript.Lexing

/-- The characters that separate lexemes. -/
def isBlank (character : Char) : Bool :=
  let code := character.toNat
  (9 ≤ code && code ≤ 13) || (28 ≤ code && code ≤ 32) || code == 0x85 || code == 0xA0 ||
    code == 0x1680 || (0x2000 ≤ code && code ≤ 0x200A) || code == 0x2028 || code == 0x2029 ||
    code == 0x202F || code == 0x205F || code == 0x3000

/-- The characters with which an identifier begins. -/
def isNameStart (character : Char) : Bool := character.isAlpha || character == '_'

/-- The characters that continue an identifier. -/
def isNamePart (character : Char) : Bool := isNameStart character || character.isDigit

/-- The number of characters at the front of a text that satisfy a predicate. -/
def runLength (holds : Char → Bool) : List Char → Nat
  | [] => 0
  | character :: rest => if holds character then runLength holds rest + 1 else 0

/-- The length of a fraction, the point included. A point without a digit after it
does not belong to the number. -/
def fractionLength : List Char → Nat
  | '.' :: rest =>
    match runLength Char.isDigit rest with
    | 0 => 0
    | digits => digits + 1
  | _ => 0

/-- The length of the rest of a string after its opening quote, the closing quote
included. A backslash takes the next character with it. A line break ends the
search in vain, also after a backslash. -/
def stringLength (quote : Char) : List Char → Option Nat
  | [] => none
  | [character] => if character = quote then some 1 else none
  | character :: next :: rest =>
    if character = quote then some 1
    else if character = '\n' then none
    else if character = '\\' then
      if next = '\n' then none else (· + 2) <$> stringLength quote rest
    else (· + 1) <$> stringLength quote (next :: rest)

/-- The length of a block comment after its opening, up to and including the first
closing. -/
def blockCommentLength : List Char → Option Nat
  | '*' :: '/' :: _ => some 2
  | _ :: rest => (· + 1) <$> blockCommentLength rest
  | [] => none

/-- What begins at a position. -/
inductive Piece where
  | gap
  | lexeme (kind : TokenKind)
  deriving DecidableEq, Repr

/-- The kind of a punctuation mark and the number of characters after its first. -/
def punctuationAt (first : Char) (rest : List Char) : Option (TokenKind × Nat) :=
  match first with
  | '=' => if rest.head? = some '>' then some (.arrow, 1) else some (.equal, 0)
  | '?' => some (.question, 0)
  | ':' => some (.colon, 0)
  | '|' => some (.pipe, 0)
  | '<' => some (.lessThan, 0)
  | '>' => some (.greaterThan, 0)
  | '+' => some (.plus, 0)
  | '(' => some (.leftParen, 0)
  | ')' => some (.rightParen, 0)
  | '{' => some (.leftCurly, 0)
  | '}' => some (.rightCurly, 0)
  | '[' => some (.leftBracket, 0)
  | ']' => some (.rightBracket, 0)
  | ',' => some (.comma, 0)
  | ';' => some (.semicolon, 0)
  | _ => none

/-- The length of a comment that begins with a slash, without that slash. -/
def commentLength : List Char → Option Nat
  | '/' :: rest => some (1 + runLength (· != '\n') rest)
  | '*' :: rest => (1 + ·) <$> blockCommentLength rest
  | _ => none

/-- The piece that begins with `first` and continues in `rest`, with the number of
characters that it takes from `rest`. -/
def pieceAt (first : Char) (rest : List Char) : Option (Piece × Nat) :=
  if isBlank first then some (.gap, runLength isBlank rest)
  else if isNameStart first then
    let length := runLength isNamePart rest
    some (.lexeme (.ofWord (String.ofList (first :: rest.take length))), length)
  else if first.isDigit then
    let whole := runLength Char.isDigit rest
    some (.lexeme .number, whole + fractionLength (rest.drop whole))
  else if first = '"' ∨ first = '\'' then
    (stringLength first rest).map fun length => (.lexeme .string, length)
  else if first = '/' then (commentLength rest).map fun length => (.gap, length)
  else (punctuationAt first rest).map fun (kind, length) => (.lexeme kind, length)

/-- The character that stands for itself after a backslash, unless the pair names a
control character. -/
def escapedCharacter : Char → Char
  | 'n' => '\n'
  | 't' => '\t'
  | 'r' => '\r'
  | '0' => '\x00'
  | other => other

/-- The text between the quotes of a string with its escapes replaced. A backslash
at the very end stands for itself. -/
def decodeEscapes : List Char → List Char
  | '\\' :: escaped :: rest => escapedCharacter escaped :: decodeEscapes rest
  | character :: rest => character :: decodeEscapes rest
  | [] => []

/-- The text denoted by a string lexeme: its first and last character are quotes. -/
def decodeString (lexeme : List Char) : String :=
  String.ofList (decodeEscapes lexeme.tail.dropLast)

/-- The number written by decimal digits, in positional notation. -/
def digitsValue (digits : List Char) : Nat :=
  digits.foldl (fun value digit => 10 * value + (digit.toNat - '0'.toNat)) 0

/-- The number denoted by a number lexeme. A point makes it a floating-point number,
rounded correctly from all of its digits. -/
def numberValue (lexeme : List Char) : Numeral :=
  let whole := lexeme.takeWhile (· != '.')
  match lexeme.dropWhile (· != '.') with
  | [] => .int (digitsValue whole)
  | _ :: decimals => .float (.ofDecimal (digitsValue (whole ++ decimals)) (-decimals.length))

/-- The value of a lexeme of a given kind. Lexemes with a fixed text carry that text. -/
def valueOf (kind : TokenKind) (lexeme : List Char) : Value :=
  match kind with
  | .number => .number (numberValue lexeme)
  | .string => .text (decodeString lexeme)
  | .trueKeyword => .boolean true
  | .falseKeyword => .boolean false
  | _ => .text (String.ofList lexeme)

/-- The tokens of a text that begins at `offset`, of which the first `pending`
characters belong to a piece that has been taken already. -/
def tokensFrom (offset : Nat) : (pending : Nat) → List Char → Except Diagnostic (List Token)
  | _, [] => .ok [.atEnd offset]
  | pending + 1, _ :: rest => tokensFrom (offset + 1) pending rest
  | 0, first :: rest =>
    match pieceAt first rest with
    | none => .error ⟨.unexpectedCharacter first, offset⟩
    | some (.gap, length) => tokensFrom (offset + 1) length rest
    | some (.lexeme kind, length) =>
      (⟨kind, valueOf kind (first :: rest.take length), offset⟩ :: ·) <$>
        tokensFrom (offset + 1) length rest

end Lexing

/-- The tokens of a source with the mark of its end, or the character at which no
token begins. -/
def tokenize (source : String) : Except Diagnostic (List Token) :=
  Lexing.tokensFrom 0 0 source.toList

end ArrowScript
