import ArrowScript.Text.Quoted
import ArrowScript.Value

/-!
# JSON documents

Artifacts are written as JSON with two blanks of indentation for every level, one
item to a line. An empty list or object stays on its line. Objects keep the order of
their members.

Texts are written in ASCII: every other character is given by its code unit of
sixteen bits, or by the two units of its surrogate pair. Floating-point numbers have
their shortest text, with words for the values that JSON itself cannot express.
-/

namespace ArrowScript

/-- A JSON document. -/
inductive Json where
  | null
  | boolean (value : Bool)
  | number (value : Numeral)
  | string (value : String)
  | array (items : List Json)
  | object (members : List (String × Json))
  deriving Repr, Inhabited

namespace Json

/-- An integer. -/
def int (value : Int) : Json := .number (.int value)

/-- A code unit of sixteen bits as an escape. -/
def unitEscape (unit : Nat) : List Char := '\\' :: 'u' :: Text.hexadecimal 4 unit

/-- A character inside a quoted text. -/
def escaped (character : Char) : List Char :=
  let code := character.toNat
  if character = '"' ∨ character = '\\' then ['\\', character]
  else if character = '\n' then ['\\', 'n']
  else if character = '\r' then ['\\', 'r']
  else if character = '\t' then ['\\', 't']
  else if code = 8 then ['\\', 'b']
  else if code = 12 then ['\\', 'f']
  else if 32 ≤ code ∧ code < 127 then [character]
  else if code < 0x10000 then unitEscape code
  else
    let surplus := code - 0x10000
    unitEscape (0xD800 + surplus / 0x400) ++ unitEscape (0xDC00 + surplus % 0x400)

/-- A text between double quotes. -/
def quoted (text : String) : String :=
  String.ofList ('"' :: text.toList.flatMap escaped ++ ['"'])

/-- The text of a number. -/
def numeralText : Numeral → String
  | .int value => toString value
  | .float value =>
    if value.finite then value.text
    else if value.fraction = 0 then (if value.negative then "-Infinity" else "Infinity")
    else "NaN"

/-- The beginning of a line at a level of indentation. -/
def newline (level : Nat) : String := "\n" ++ String.ofList (List.replicate (2 * level) ' ')

/-- Items between brackets, each on a line of its own. -/
def enclosed (opening closing : String) (level : Nat) (items : List String) : String :=
  match items with
  | [] => opening ++ closing
  | _ => opening ++ newline (level + 1) ++ ("," ++ newline (level + 1)).intercalate items ++
      newline level ++ closing

mutual

/-- The text of a document whose first line stands at a level of indentation. -/
def textAt (level : Nat) : Json → String
  | null => "null"
  | boolean true => "true"
  | boolean false => "false"
  | number value => numeralText value
  | string value => quoted value
  | array items => enclosed "[" "]" level (itemTexts (level + 1) items)
  | object members => enclosed "\x7b" "\x7d" level (memberTexts (level + 1) members)

/-- The texts of the items of a list. -/
def itemTexts (level : Nat) : List Json → List String
  | [] => []
  | item :: rest => item.textAt level :: itemTexts level rest

/-- The texts of the members of an object. -/
def memberTexts (level : Nat) : List (String × Json) → List String
  | [] => []
  | (key, value) :: rest => (quoted key ++ ": " ++ value.textAt level) :: memberTexts level rest

end

/-- The text of a document. -/
def text (document : Json) : String := document.textAt 0

end Json

/-- A literal value as a document. -/
def Value.json : Value → Json
  | .absent => .null
  | .boolean value => .boolean value
  | .number value => .number value
  | .text value => .string value

end ArrowScript
