import ArrowScript.Value

/-!
# Tokens

A token is a lexeme classified by its kind, with its value and the offset of its
first character. The kinds are the keywords, the names of built-in types, the
punctuation, the three classes of lexemes with varying text, and the end of the
source.

A stream handed to the parser may hold kinds that no lexeme has. They are kept under
their name as `unrecognized`, so the parser can report them.
-/

namespace ArrowScript

/-- The classes of lexemes. -/
inductive TokenKind where
  | constKeyword | returnKeyword | trueKeyword | falseKeyword
  | typeNumber | typeString | typeBoolean | typeArray | typeVoid | typeVoidAlias
  | typeFloat | typeBool | typeUnit
  | arrow | question | colon | equal | pipe | lessThan | greaterThan | plus
  | leftParen | rightParen | leftCurly | rightCurly | leftBracket | rightBracket
  | comma | semicolon
  | identifier | number | string
  | endOfFile
  | unrecognized (name : String)
  deriving DecidableEq, Repr, Inhabited

namespace TokenKind

/-- Every kind that the lexer produces. -/
def recognized : List TokenKind :=
  [constKeyword, returnKeyword, trueKeyword, falseKeyword, typeNumber, typeString, typeBoolean,
    typeArray, typeVoid, typeVoidAlias, typeFloat, typeBool, typeUnit, arrow, question, colon,
    equal, pipe, lessThan, greaterThan, plus, leftParen, rightParen, leftCurly, rightCurly,
    leftBracket, rightBracket, comma, semicolon, identifier, number, string, endOfFile]

/-- The name under which a kind is published. -/
def name : TokenKind → String
  | constKeyword => "CONST"
  | returnKeyword => "RETURN"
  | trueKeyword => "TRUE"
  | falseKeyword => "FALSE"
  | typeNumber => "TYPE_NUMBER"
  | typeString => "TYPE_STRING"
  | typeBoolean => "TYPE_BOOLEAN"
  | typeArray => "TYPE_ARRAY"
  | typeVoid => "TYPE_VOID"
  | typeVoidAlias => "TYPE_VOID_ALIAS"
  | typeFloat => "TYPE_FLOAT"
  | typeBool => "TYPE_BOOL"
  | typeUnit => "TYPE_UNIT"
  | arrow => "ARROW"
  | question => "QUESTION"
  | colon => "COLON"
  | equal => "EQUAL"
  | pipe => "PIPE"
  | lessThan => "LESS_THAN"
  | greaterThan => "GREATER_THAN"
  | plus => "PLUS"
  | leftParen => "LEFT_PAREN"
  | rightParen => "RIGHT_PAREN"
  | leftCurly => "LEFT_CURLY"
  | rightCurly => "RIGHT_CURLY"
  | leftBracket => "LEFT_BRACKET"
  | rightBracket => "RIGHT_BRACKET"
  | comma => "COMMA"
  | semicolon => "SEMICOLON"
  | identifier => "IDENTIFIER"
  | number => "NUMBER"
  | string => "STRING"
  | endOfFile => "EOF"
  | unrecognized name => name

/-- The kind with the given published name. -/
def ofName (name : String) : TokenKind :=
  (recognized.find? (·.name == name)).getD (unrecognized name)

/-- The words for a kind inside a report. A kind without words of its own is
mentioned by its published name. -/
def description : TokenKind → String
  | constKeyword => "the 'const' keyword"
  | returnKeyword => "the 'return' keyword"
  | trueKeyword => "'true'"
  | falseKeyword => "'false'"
  | typeNumber => "the 'number' type"
  | typeString => "the 'string' type"
  | typeBoolean => "the 'boolean' type"
  | typeArray => "the 'Array' type"
  | typeVoid => "the 'void' type"
  | typeVoidAlias => "the 'Void' type"
  | typeFloat => "the 'Float' type"
  | typeBool => "the 'Bool' type"
  | typeUnit => "the 'Unit' type"
  | arrow => "an arrow '=>'"
  | question => "a question mark '?'"
  | colon => "a colon ':'"
  | equal => "an equals sign '='"
  | pipe => "a pipe '|'"
  | lessThan => "a '<'"
  | greaterThan => "a '>'"
  | plus => "a plus sign '+'"
  | leftParen => "an opening parenthesis '('"
  | rightParen => "a closing parenthesis ')'"
  | leftCurly => "an opening brace '\x7b'"
  | rightCurly => "a closing brace '\x7d'"
  | leftBracket => "an opening bracket '['"
  | rightBracket => "a closing bracket ']'"
  | comma => "a comma ','"
  | semicolon => "a semicolon ';'"
  | identifier => "a variable name"
  | number => "a number"
  | string => "a string literal"
  | endOfFile => "the end of the file"
  | unrecognized name => name

/-- The words with a fixed spelling that would otherwise be identifiers. -/
def words : List (String × TokenKind) :=
  [("const", constKeyword), ("return", returnKeyword), ("true", trueKeyword),
    ("false", falseKeyword), ("number", typeNumber), ("string", typeString),
    ("boolean", typeBoolean), ("Array", typeArray), ("void", typeVoid), ("Void", typeVoidAlias),
    ("Float", typeFloat), ("Bool", typeBool), ("Unit", typeUnit)]

/-- The kind of a whole word: a reserved one, or an identifier. -/
def ofWord (word : String) : TokenKind := (words.lookup word).getD identifier

/-- Tells whether a kind spells a primitive type. -/
def isPrimitiveType : TokenKind → Bool
  | typeNumber | typeString | typeBoolean | typeVoid | typeVoidAlias | typeFloat | typeBool
  | typeUnit => true
  | _ => false

end TokenKind

/-- A classified lexeme. -/
structure Token where
  kind : TokenKind
  value : Value
  offset : Int
  deriving DecidableEq, Repr, Inhabited

namespace Token

/-- The text of a token whose value is one, as for identifiers and operators. -/
def text (token : Token) : String :=
  match token.value with
  | .text text => text
  | other => other.display

/-- The words for a token inside a report. Names and numbers are cited. -/
def description (token : Token) : String :=
  match token.kind with
  | .identifier | .number => s!"{token.kind.description} '{token.value.display}'"
  | kind => kind.description

/-- The token that ends a stream. -/
def atEnd (offset : Int) : Token := ⟨.endOfFile, .absent, offset⟩

end Token

end ArrowScript
