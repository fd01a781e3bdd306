import ArrowScript.Text.Printable

/-!
# Quoted texts

A text inside a report about names or values is written between quotes so that its
ends and its invisible characters can be seen. Single quotes are preferred; double
quotes are used when the text has a single quote and no double one. The chosen
quote, the backslash and the characters that are not printable are escaped.
-/

namespace ArrowScript.Text

/-- A hexadecimal number in lower case, padded with zeros to a given width. -/
def hexadecimal (width number : Nat) : List Char :=
  let digits := Nat.toDigits 16 number
  List.replicate (width - digits.length) '0' ++ digits

/-- A character that is not printable, by the shortest of the three numeric escapes
that has room for its code point. -/
def numericEscape (character : Char) : List Char :=
  let code := character.toNat
  if code < 256 then '\\' :: 'x' :: hexadecimal 2 code
  else if code < 65536 then '\\' :: 'u' :: hexadecimal 4 code
  else '\\' :: 'U' :: hexadecimal 8 code

/-- A character inside the given quotes. -/
def quotedCharacter (quote character : Char) : List Char :=
  if character = quote ∨ character = '\\' then ['\\', character]
  else if character = '\n' then ['\\', 'n']
  else if character = '\r' then ['\\', 'r']
  else if character = '\t' then ['\\', 't']
  else if isPrintable character then [character]
  else numericEscape character

/-- The quote that needs the fewest escapes, single ones being preferred. -/
def chosenQuote (text : List Char) : Char :=
  if text.contains '\'' && !text.contains '"' then '"' else '\''

/-- The text between quotes, with escapes for what could not be read otherwise. -/
def quoted (text : String) : String :=
  let characters := text.toList
  let quote := chosenQuote characters
  String.ofList (quote :: characters.flatMap (quotedCharacter quote) ++ [quote])

end ArrowScript.Text
