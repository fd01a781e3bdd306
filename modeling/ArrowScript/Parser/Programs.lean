import ArrowScript.Parser.Ascriptions
import ArrowScript.Token.Lexing

/-!
# Parsing expressions, statements and programs

Expressions and statements contain each other through the bodies of arrow functions.
Each rule below takes the parser for the expressions inside it as an argument;
`expressionWithin` ties the knot for every depth.

An error inside a statement is recorded, and the parser skips to the next boundary:
behind a semicolon, or to the closing brace of the enclosing block. Braces that are
opened while skipping are skipped with their contents. So the statements after an
error are read as if it had not occurred, and a program always comes out.
-/

namespace ArrowScript.Parser

/-- Expressions separated by commas, up to a closing token. -/
def expressionList (nested : Parser Expression) (closing : TokenKind) :
    Parser (List Expression) :=
  itemsUntil nested closing

/-- An expression that is not composed, or one between brackets or parentheses. -/
def primary (nested : Parser Expression) : Parser Expression := do
  let token ← peek
  match token.kind with
  | .number =>
    let _ ← advance
    match token.value with
    | .number value => return .number token.offset value
    | _ => return .number token.offset (.int 0)
  | .string =>
    let _ ← advance
    return .string token.offset token.text
  | .trueKeyword | .falseKeyword =>
    let _ ← advance
    return .boolean token.offset (token.value = .boolean true)
  | .identifier =>
    let _ ← advance
    return .identifier { offset := token.offset, name := token.text }
  | .leftBracket =>
    let _ ← advance
    return .array token.offset (← expressionList nested .rightBracket)
  | .leftParen =>
    let _ ← advance
    let inner ← nested
    let _ ← expect .rightParen
    return inner
  | _ => unexpected "an expression"

/-- Calls and index brackets after an expression, each applied to all before it. -/
def applications (nested : Parser Expression) : Nat → Expression → Parser Expression
  | 0, applied => return applied
  | steps + 1, applied => do
    if ← accept .leftParen then
      let arguments ← expressionList nested .rightParen
      applications nested steps (.call applied.offset applied arguments)
    else if ← accept .leftBracket then
      let index ← nested
      let _ ← expect .rightBracket
      applications nested steps (.member applied.offset applied index)
    else return applied

/-- A `const` declaration. The semicolon after it may be left out. -/
def constDeclaration (nested : Parser Expression) : Parser Statement := do
  let keyword ← advance
  let name ← expect .identifier
  let annotated ← if ← accept .colon then some <$> ascription else pure none
  let _ ← expect .equal
  let initial ← nested
  let _ ← accept .semicolon
  return .constant keyword.offset { offset := name.offset, name := name.text } annotated initial

/-- The tokens that end a return statement without an argument. -/
def returnTerminators : List TokenKind :=
  [.semicolon, .rightCurly, .endOfFile, .constKeyword, .returnKeyword]

/-- A `return` statement. The semicolon after it may be left out. -/
def returnStatement (nested : Parser Expression) : Parser Statement := do
  let keyword ← advance
  let argument ← if ← check returnTerminators then pure none else some <$> nested
  let _ ← accept .semicolon
  return .returning keyword.offset argument

/-- A statement of either kind. -/
def statement (nested : Parser Expression) : Parser Statement := do
  if ← check [.constKeyword] then constDeclaration nested
  else if ← check [.returnKeyword] then returnStatement nested
  else unexpected "a 'const' declaration or a 'return' statement"

/-- The tokens from the next statement boundary on. `depth` counts the braces that
have been opened while skipping. -/
def recoveryPoint (inBlock : Bool) : (depth : Nat) → List Token → List Token
  | _, [] => []
  | depth, token :: rest =>
    match token.kind with
    | .endOfFile => token :: rest
    | .leftCurly => recoveryPoint inBlock (depth + 1) rest
    | .rightCurly =>
      match depth with
      | 0 => if inBlock then token :: rest else rest
      | outer + 1 => recoveryPoint inBlock outer rest
    | .semicolon => if depth = 0 then rest else recoveryPoint inBlock depth rest
    | _ => recoveryPoint inBlock depth rest

/-- Skips to the next statement boundary. A semicolon is consumed; a closing brace is
left for the enclosing block, or consumed when there is none. -/
def synchronize (inBlock : Bool) : Parser Unit :=
  modify fun cursor => { cursor with rest := recoveryPoint inBlock 0 cursor.rest }

/-- A statement, or nothing after an error in it has been recorded. -/
def recovering (nested : Parser Expression) (inBlock : Bool) : Parser (Option Statement) := do
  try some <$> statement nested
  catch diagnostic =>
    modify fun cursor => { cursor with diagnostics := cursor.diagnostics ++ [diagnostic] }
    synchronize inBlock
    return none

/-- Statements up to a token that ends them. Semicolons between them are skipped. -/
def statements (nested : Parser Expression) (inBlock : Bool) (ends : List TokenKind) :
    Nat → Parser (List Statement)
  | 0 => return []
  | steps + 1 => do
    if ← check ends then return []
    else if ← accept .semicolon then statements nested inBlock ends steps
    else
      let first ← recovering nested inBlock
      let rest ← statements nested inBlock ends steps
      return first.toList ++ rest

/-- The body of an arrow function, up to its own closing brace. -/
def block (nested : Parser Expression) : Parser Block := do
  let opening ← expect .leftCurly
  let body ← bounded (statements nested true [.rightCurly, .endOfFile])
  let _ ← expect .rightCurly
  return { offset := opening.offset, statements := body }

/-- An arrow function. Its body has to be a block. -/
def arrowFunction (nested : Parser Expression) : Parser Expression := do
  let opening ← peek
  let (params, result) ← arrowHead true
  let _ ← expect .arrow
  if ← check [.leftCurly] then
    return .arrow opening.offset params result (← block nested)
  else throw ⟨.expressionBodyRejected, (← peek).offset⟩

/-- An arrow function, or an expression with calls and index brackets after it. -/
def operand (nested : Parser Expression) : Parser Expression := do
  if (← check [.leftParen]) && (← arrowAhead) then arrowFunction nested
  else
    let first ← primary nested
    bounded fun steps => applications nested steps first

/-- Operands joined to what precedes them, from left to right. -/
def sums (nested : Parser Expression) : Nat → Expression → Parser Expression
  | 0, left => return left
  | steps + 1, left => do
    match ← match? [.plus] with
    | none => return left
    | some operator =>
      let right ← operand nested
      sums nested steps (.binary left.offset left operator.text right)

/-- Operands joined by binary operators, which associate to the left. -/
def binary (nested : Parser Expression) : Parser Expression := do
  let first ← operand nested
  bounded fun steps => sums nested steps first

/-- A conditional expression, or only what could be its test. Both branches are full
expressions, so conditionals associate to the right. -/
def conditional (nested : Parser Expression) : Parser Expression := do
  let test ← binary nested
  if ← accept .question then
    let consequent ← nested
    let _ ← expect .colon
    let alternate ← nested
    return .conditional test.offset test consequent alternate
  else return test

/-- An expression with at most the given number of expressions inside one another. -/
def expressionWithin : Nat → Parser Expression
  | 0 => unexpected "an expression"
  | depth + 1 => conditional (expressionWithin depth)

/-- An expression of any depth. -/
def expression : Parser Expression := bounded expressionWithin

/-- A whole program. No error stops it. -/
def program : Parser Program := do
  let body ← bounded (statements expression false [.endOfFile])
  return { body }

end Parser

/-- The program of a token stream, with its syntax diagnostics. -/
def parseProgram (tokens : List Token) : Program × List Diagnostic :=
  match Parser.program.runAt (.start tokens) with
  | (.ok program, cursor) => (program, cursor.diagnostics)
  | (.error diagnostic, cursor) => ({ body := [] }, cursor.diagnostics ++ [diagnostic])

/-- The program of a source, with its diagnostics. A source that is not made of tokens
gives the empty program. -/
def parseSource (source : String) : Program × List Diagnostic :=
  match tokenize source with
  | .ok tokens => parseProgram tokens
  | .error diagnostic => ({ body := [] }, [diagnostic])

end ArrowScript
