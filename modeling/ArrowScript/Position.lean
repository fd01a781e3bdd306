import ArrowScript.Text.Split

/-!
# Offsets, lines and columns

An offset counts characters from the beginning of a text. A position counts the line
breaks before it and the characters after the last of them. Only a line feed ends a
line.

Offsets outside the text are moved to its nearest end. A position beyond the end of a
line is at the end of that line, and one beyond the last line is in the last line.
-/

namespace ArrowScript

/-- A place in a text: the number of lines before it, and of characters before it in
its line. -/
structure Position where
  line : Nat
  character : Nat
  deriving DecidableEq, Repr, Inhabited

namespace Position

/-- The position one character further on. -/
def step (position : Position) (character : Char) : Position :=
  if character = '\n' then ⟨position.line + 1, 0⟩ else ⟨position.line, position.character + 1⟩

/-- The position at the end of a text. -/
def after (text : List Char) : Position := text.foldl step ⟨0, 0⟩

end Position

/-- The position of an offset. -/
def positionAt (source : String) (offset : Int) : Position :=
  .after (source.toList.take offset.toNat)

/-- The line and column of an offset, both counted from one. -/
def lineColumn (source : String) (offset : Int) : Nat × Nat :=
  let position := positionAt source offset
  (position.line + 1, position.character + 1)

/-- The offset of a position. -/
def offsetAt (source : String) (position : Position) : Nat :=
  let lines := Text.split '\n' source.toList
  let line := min position.line (lines.length - 1)
  let before := (lines.take line).foldl (fun total text => total + text.length + 1) 0
  before + min position.character (lines[line]?.getD []).length

end ArrowScript
