import ArrowScript.Problem
import ArrowScript.Token

/-!
# A cursor over tokens

Parsers read a stream of tokens from front to back. The stream always ends with a
mark of its end, which is never consumed, so there is a token to look at wherever
the cursor stands. Besides the tokens ahead, the cursor carries the diagnostics that
recovered errors have left.

A cursor can be moved to any place. Behind the end of the stream it looks at the mark of
the end, and before its beginning it counts from the end. `displacement` tells how far
the number of its place is from the number of tokens before the ones it looks at.

A parser either returns a result or fails with one diagnostic; in both cases the
cursor stays where the parser has left it.
-/

namespace ArrowScript

/-- A place in a token stream, with the problems found on the way to it. -/
structure Cursor where
  rest : List Token
  last : Token
  diagnostics : List Diagnostic := []
  displacement : Int := 0
  deriving Repr, Inhabited

namespace Cursor

/-- The tokens with a mark of the end after them, unless the last one is such a mark.
A mark that is added stands at the offset of the last token. -/
def stream (tokens : List Token) : List Token :=
  match tokens.getLast? with
  | none => [.atEnd 0]
  | some last => if last.kind = .endOfFile then tokens else tokens ++ [.atEnd last.offset]

/-- The cursor before the first token. -/
def start (tokens : List Token) : Cursor :=
  let marked := stream tokens
  { rest := marked, last := marked.getLast?.getD (.atEnd 0) }

/-- The token at a distance from the cursor; beyond the end it is the last one. -/
def ahead (cursor : Cursor) (distance : Nat) : Token := cursor.rest[distance]?.getD cursor.last

/-- The place of the cursor in a whole stream. From the first token to the last one it is
the number of tokens before the cursor. -/
def position (cursor : Cursor) (whole : List Token) : Int :=
  whole.length - cursor.rest.length + cursor.displacement

/-- The cursor moved to a place of the whole stream. -/
def moveTo (cursor : Cursor) (whole : List Token) (place : Int) : Cursor :=
  let before :=
    if place < 0 then whole.length - place.natAbs else min place.toNat (whole.length - 1)
  { cursor with rest := whole.drop before, displacement := place - before }

/-- The token at a signed distance from the cursor within the whole stream. A place
before the first token counts backwards from the end. -/
def around (cursor : Cursor) (whole : List Token) (distance : Int) : Token :=
  let index := cursor.position whole + distance
  if index < 0 then whole[whole.length - index.natAbs]?.getD cursor.last
  else whole[index.toNat]?.getD cursor.last

end Cursor

/-- A parser reads tokens from a cursor and returns a result or a diagnostic. -/
abbrev Parser := ExceptT Diagnostic (StateM Cursor)

namespace Parser

/-- Runs a parser at a cursor. -/
def runAt {α : Type} (parser : Parser α) (cursor : Cursor) : Except Diagnostic α × Cursor :=
  (ExceptT.run parser).run cursor

/-- The next token, or one further on. -/
def peek (distance : Nat := 0) : Parser Token := do return (← get).ahead distance

/-- Consumes the next token. The end of the stream is never consumed. -/
def advance : Parser Token := do
  let token ← peek
  if token.kind ≠ .endOfFile then
    modify fun cursor => { cursor with rest := cursor.rest.tail }
  return token

/-- Tells whether the next token is of one of the given kinds. -/
def check (kinds : List TokenKind) : Parser Bool := do return kinds.contains (← peek).kind

/-- Consumes the next token if it is of one of the given kinds. -/
def match? (kinds : List TokenKind) : Parser (Option Token) := do
  if ← check kinds then return some (← advance) else return none

/-- Consumes the next token if it is of the given kind, and tells whether it was. -/
def accept (kind : TokenKind) : Parser Bool := do return (← match? [kind]).isSome

/-- Fails at the next token, with words for what could have stood there. -/
def unexpected {α : Type} (expected : String) : Parser α := do
  let token ← peek
  throw ⟨.unexpectedToken expected token.description, token.offset⟩

/-- Consumes a token of the given kind, or fails with words for what was expected. -/
def expect (kind : TokenKind) (expected : String := kind.description) : Parser Token := do
  if ← check [kind] then advance else unexpected expected

/-- Runs a rule with a bound on its nested or repeated steps. Every step of a rule
consumes a token, so the number of tokens ahead is a bound that is never reached. -/
def bounded {α : Type} (rule : Nat → Parser α) : Parser α := do
  rule ((← get).rest.length + 1)

/-- Repeats an item after every comma. -/
def moreItems {α : Type} (item : Parser α) : Nat → Parser (List α)
  | 0 => return []
  | steps + 1 => do
    if ← accept .comma then
      let next ← item
      return next :: (← moreItems item steps)
    else return []

/-- One item or more, separated by commas. -/
def items {α : Type} (item : Parser α) : Parser (List α) := do
  let first ← item
  return first :: (← bounded (moreItems item))

/-- Items separated by commas, with the token that closes their list. -/
def itemsUntil {α : Type} (item : Parser α) (closing : TokenKind) : Parser (List α) := do
  let found ← if ← check [closing] then pure [] else items item
  let _ ← expect closing
  return found

end Parser

end ArrowScript
