import ArrowScript.Compilation
import ArrowScript.Position
import ArrowScript.Text.Alphanumeric
import ArrowScript.Tree.Statements

/-!
# Editor support

An editor shows the diagnostics of an open document at the words that they are
about, and the type of a constant where its name is pointed at. The constant is the
nearest one with that name that is declared at or before the cursor, or else the first
one with that name.

An offset before the source counts from its end, as the last character has offset -1.

The documents that an editor has open are kept by their names. Every change of a
document gives its diagnostics anew.
-/

namespace ArrowScript.Editor

/-! ## Words -/

/-- The number of characters before an offset. -/
def place (characters : List Char) (offset : Int) : Nat :=
  if offset < 0 then characters.length - offset.natAbs else offset.toNat

/-- The characters whose offsets are not before the given one. Those with an offset
before the source come first. -/
def charactersFrom (characters : List Char) (offset : Int) : List Char :=
  let rest := characters.drop (place characters offset)
  if offset < 0 then rest ++ characters else rest

/-- The word characters from an offset on. -/
def wordFrom (source : String) (offset : Int) : List Char :=
  (charactersFrom source.toList offset).takeWhile Text.isWordCharacter

/-- The offset at which the word around an offset ends. At least one character is
taken, so that a mark on it can be seen. -/
def wordEnd (source : String) (offset : Int) : Int :=
  max (offset + (wordFrom source offset).length) (offset + 1)

/-- The word around an offset, which may be empty. -/
def wordAt (source : String) (offset : Int) : String :=
  let characters := source.toList
  let before := (characters.take offset.toNat).reverse.takeWhile Text.isWordCharacter
  let start := place characters (offset - before.length)
  let stop := place characters (offset + (wordFrom source offset).length)
  String.ofList ((characters.take stop).drop start)

/-! ## Diagnostics -/

/-- A stretch of a document. -/
structure Range where
  start : Position
  stop : Position
  deriving DecidableEq, Repr

/-- A diagnostic at its place in a document. -/
structure Mark where
  range : Range
  message : String
  code : ErrorCode
  deriving DecidableEq, Repr

/-- The weight of every mark: all diagnostics are errors. -/
def severity : Nat := 1

/-- The origin that is shown with every mark. -/
def origin : String := "arrowscript"

/-- A diagnostic at the word where it was found. -/
def mark (source : String) (diagnostic : Diagnostic) : Mark :=
  { range :=
      { start := positionAt source diagnostic.offset
        stop := positionAt source (wordEnd source diagnostic.offset) }
    message := diagnostic.message
    code := diagnostic.code }

/-- The diagnostics of a document. -/
def marks (source : String) : List Mark := (typecheck source).2.map (mark source)

/-! ## Types of constants -/

/-- A constant with the type that was inferred for it. -/
structure TypedConstant where
  id : Identifier
  type : Ty
  deriving Repr

/-- The constants of a program at all depths that have a type, in their order. -/
def typedConstants (program : Program) : List TypedConstant :=
  program.statements.filterMap fun
    | (_, .constant _ id _ _ (some type)) => some { id, type }
    | _ => none

/-- The last of the constants that are declared at or before an offset, or else the
first of all. -/
def nearest? (constants : List TypedConstant) (offset : Int) : Option TypedConstant :=
  match (constants.filter fun constant => constant.id.offset ≤ offset).getLast? with
  | some constant => some constant
  | none => constants.head?

/-- The description of the constant whose name stands around an offset. -/
def hover? (program : Program) (source : String) (offset : Int) : Option String :=
  let word := wordAt source offset
  if word.isEmpty then none
  else
    let named := (typedConstants program).filter fun constant => constant.id.name == word
    (nearest? named offset).map fun constant =>
      "```arrowscript\n" ++ s!"(constant) {word}: {constant.type.text}\n" ++ "```"

/-! ## Open documents -/

/-- The texts of the open documents by their names. -/
abbrev Documents := List (String × String)

namespace Documents

/-- Opens a document, or replaces its text. -/
def update (documents : Documents) (name text : String) : Documents :=
  (name, text) :: documents.filter (·.1 != name)

/-- The text of a document. A document that is not open is empty. -/
def text (documents : Documents) (name : String) : String := (documents.lookup name).getD ""

/-- The description of what stands at a position of a document. -/
def hover? (documents : Documents) (name : String) (position : Position) : Option String :=
  let source := documents.text name
  Editor.hover? (typecheck source).1 source (offsetAt source position)

end Documents

end ArrowScript.Editor
