import ArrowScript.Binary64.Shortest

/-!
# Literal values

A number literal without a fractional part is an integer of any size; one with a
fractional part is a binary floating-point number, also when the fraction is zero.
The values that a token can carry are these numbers, truth values, texts, and the
absence of a value.

`Numeral.display` and `Value.display` give the words in which a report mentions a
value.
-/

namespace ArrowScript

/-- The value of a number literal. -/
inductive Numeral where
  | int (value : Int)
  | float (value : Binary64)
  deriving DecidableEq, Repr, Inhabited

/-- Integers are written in decimal, floating-point numbers by their shortest text. -/
def Numeral.display : Numeral → String
  | .int value => toString value
  | .float value => value.text

/-- Tells whether the number is an integer, whichever way it is represented. -/
def Numeral.isWhole : Numeral → Bool
  | .int _ => true
  | .float value => value.isWhole

/-- What a token carries besides its kind. -/
inductive Value where
  | absent
  | boolean (value : Bool)
  | number (value : Numeral)
  | text (value : String)
  deriving DecidableEq, Repr, Inhabited

/-- The words for a value inside a report. A text stands for itself. -/
def Value.display : Value → String
  | .absent => "None"
  | .boolean true => "True"
  | .boolean false => "False"
  | .number value => value.display
  | .text value => value

end ArrowScript
