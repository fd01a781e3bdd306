import ArrowScript.Parser
import ArrowScript.Tree

/-!
# Parsing type ascriptions

An ascription is a type name, an array type in one of its two spellings, or a
function type. Brackets after a type make it an array type, but only when they are
empty: any other bracket belongs to what follows.

The name `any` is refused where an ascription counts. A scan that only looks ahead
lets it pass, so that the parser itself can report it.
-/

namespace ArrowScript.Parser

/-- A parameter: a name with an ascription after a colon, if there is one. -/
def parameter (ascription : Parser Ascription) : Parser Parameter := do
  let name ← expect .identifier "a parameter name"
  let ascribed ← if ← accept .colon then some <$> ascription else pure none
  return { offset := name.offset, name := name.text, ascription := ascribed }

/-- Parameters between parentheses. -/
def parameters (ascription : Parser Ascription) : Parser (List Parameter) := do
  let _ ← expect .leftParen
  itemsUntil (parameter ascription) .rightParen

/-- Empty brackets after a type, each pair making it an array type. -/
def arraySuffixes : Nat → Ascription → Parser Ascription
  | 0, element => return element
  | steps + 1, element => do
    if (← check [.leftBracket]) && (← peek 1).kind = .rightBracket then
      let _ ← advance
      let _ ← advance
      arraySuffixes steps (.array element.offset element)
    else return element

/-- The ascriptions that are not allowed to be written. -/
def rejectedName (name : String) : Bool := name == "any"

/-- An ascription without brackets after it. Ascriptions inside it are read by
`nested`. -/
def simpleAscription (rejectAny : Bool) (nested : Parser Ascription) : Parser Ascription := do
  let token ← peek
  if token.kind.isPrimitiveType then
    let _ ← advance
    return .named token.offset token.text
  else if token.kind = .identifier then
    if rejectAny && rejectedName token.text then throw ⟨.anyTypeRejected, token.offset⟩
    let _ ← advance
    return .named token.offset token.text
  else if token.kind = .typeArray then
    let _ ← advance
    let _ ← expect .lessThan
    let element ← nested
    let _ ← expect .greaterThan
    return .array token.offset element
  else if token.kind = .leftParen then
    let params ← parameters nested
    let _ ← expect .arrow
    let result ← nested
    return .function token.offset params result
  else unexpected "a type"

/-- An ascription with at most the given number of ascriptions inside one another. -/
def ascriptionWithin (rejectAny : Bool) : Nat → Parser Ascription
  | 0 => unexpected "a type"
  | depth + 1 => do
    let simple ← simpleAscription rejectAny (ascriptionWithin rejectAny depth)
    bounded fun steps => arraySuffixes steps simple

/-- An ascription of any depth. -/
def ascription (rejectAny : Bool := true) : Parser Ascription :=
  bounded (ascriptionWithin rejectAny)

/-- The part of an arrow function before its arrow: the parameters and the result
type, if it is given. -/
def arrowHead (rejectAny : Bool) : Parser (List Parameter × Option Ascription) := do
  let params ← parameters (ascription rejectAny)
  let result ← if ← accept .colon then some <$> ascription rejectAny else pure none
  return (params, result)

/-- Tells whether an arrow function begins at the cursor. The head is read
tolerantly, and the cursor stays where it was, whatever the outcome. -/
def arrowAhead : Parser Bool := do
  let cursor ← get
  match (arrowHead false).runAt cursor with
  | (.ok _, afterHead) => return (afterHead.ahead 0).kind = .arrow
  | (.error _, _) => return false

end ArrowScript.Parser
