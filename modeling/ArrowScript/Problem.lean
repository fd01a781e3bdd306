import ArrowScript.Value

/-!
# Problems and diagnostics

Every problem that an analysis can find is a constructor of `Problem` with the facts
that belong to it. Its code classifies it; the wording of each code is a template
whose holes are filled by named details, and stands in one place, `ErrorCode.template`.

A diagnostic is a problem at an offset of the source. `Problem.message_fills` says
that the facts of a problem fill every hole of its template, so a message never
lacks a detail.
-/

namespace ArrowScript

/-- The kinds of problems, from lexical ones to those of types. -/
inductive ErrorCode where
  | unexpectedCharacter
  | unexpectedToken
  | anyTypeRejected
  | expressionBodyRejected
  | returnNotLast
  | duplicateDeclaration
  | duplicateParameter
  | undeclaredReference
  | typeMismatch
  | operatorTypeMismatch
  | infiniteType
  | arityMismatch
  | notCallable
  | unsupportedOperator
  deriving DecidableEq, Repr, Inhabited

namespace ErrorCode

/-- All codes, in the order of the stages that report them. -/
def all : List ErrorCode :=
  [unexpectedCharacter, unexpectedToken, anyTypeRejected, expressionBodyRejected, returnNotLast,
    duplicateDeclaration, duplicateParameter, undeclaredReference, typeMismatch,
    operatorTypeMismatch, infiniteType, arityMismatch, notCallable, unsupportedOperator]

/-- The name under which a code is published. -/
def name : ErrorCode → String
  | unexpectedCharacter => "UNEXPECTED_CHARACTER"
  | unexpectedToken => "UNEXPECTED_TOKEN"
  | anyTypeRejected => "ANY_TYPE_REJECTED"
  | expressionBodyRejected => "EXPRESSION_BODY_REJECTED"
  | returnNotLast => "RETURN_NOT_LAST"
  | duplicateDeclaration => "DUPLICATE_DECLARATION"
  | duplicateParameter => "DUPLICATE_PARAMETER"
  | undeclaredReference => "UNDECLARED_REFERENCE"
  | typeMismatch => "TYPE_MISMATCH"
  | operatorTypeMismatch => "OPERATOR_TYPE_MISMATCH"
  | infiniteType => "INFINITE_TYPE"
  | arityMismatch => "ARITY_MISMATCH"
  | notCallable => "NOT_CALLABLE"
  | unsupportedOperator => "UNSUPPORTED_OPERATOR"

/-- The code with the given published name. -/
def ofName? (name : String) : Option ErrorCode := all.find? (·.name == name)

end ErrorCode

/-- One part of a template: text that stands as it is, or a hole for a detail. -/
inductive Piece where
  | words (text : String)
  | hole (detail : String)
  deriving DecidableEq, Repr

/-- The facts of a problem under the names that templates use. -/
abbrev Details := List (String × Value)

/-- The text of a template with its holes filled, or the first detail that is
missing. Details without a hole are ignored. -/
def fill (details : Details) : List Piece → Except String String
  | [] => .ok ""
  | .words text :: rest => (text ++ ·) <$> fill details rest
  | .hole detail :: rest =>
    match details.lookup detail with
    | some value => (value.display ++ ·) <$> fill details rest
    | none => .error detail

/-- The wording of each code. -/
def ErrorCode.template : ErrorCode → List Piece
  | unexpectedCharacter => [.words "Unexpected character '", .hole "char", .words "'."]
  | unexpectedToken => [.words "Syntax Error: ", .hole "details"]
  | anyTypeRejected => [.words "The 'any' type is not supported."]
  | expressionBodyRejected =>
    [.words "Arrow functions must have a block body with an explicit return statement."]
  | returnNotLast => [.words "Return statement must be the last statement in a function."]
  | duplicateDeclaration => [.words "Duplicate declaration of '", .hole "name", .words "'."]
  | duplicateParameter => [.words "Duplicate parameter name '", .hole "name", .words "'."]
  | undeclaredReference =>
    [.words "Reference to undeclared variable '", .hole "name", .words "'."]
  | typeMismatch =>
    [.words "Type mismatch: ", .hole "left", .words " is not compatible with ", .hole "right",
      .words "."]
  | operatorTypeMismatch =>
    [.words "The '", .hole "op",
      .words "' operator requires either numeric operands or string operands, but got '",
      .hole "provided_type", .words "'."]
  | infiniteType =>
    [.words "Infinite type: cannot unify ", .hole "left", .words " with ", .hole "right",
      .words "."]
  | arityMismatch =>
    [.words "Function parameter count mismatch: expected ", .hole "expected", .words " but got ",
      .hole "provided", .words "."]
  | notCallable =>
    [.words "Called value of type '", .hole "provided_type", .words "' is not a function."]
  | unsupportedOperator => [.words "Unsupported binary operator '", .hole "op", .words "'."]

/-- A problem with the facts that explain it. Types are given by the text that they
had when the problem was found. -/
inductive Problem where
  | unexpectedCharacter (character : Char)
  | unexpectedToken (expected found : String)
  | anyTypeRejected
  | expressionBodyRejected
  | returnNotLast
  | duplicateDeclaration (name : String)
  | duplicateParameter (name : String)
  | undeclaredReference (name : String)
  | typeMismatch (left right : String)
  | operatorTypeMismatch (operator provided : String)
  | infiniteType (left right : String)
  | arityMismatch (expected provided : Nat)
  | notCallable (provided : String)
  | unsupportedOperator (operator : String)
  deriving DecidableEq, Repr, Inhabited

namespace Problem

/-- The kind of a problem. -/
def code : Problem → ErrorCode
  | unexpectedCharacter _ => .unexpectedCharacter
  | unexpectedToken _ _ => .unexpectedToken
  | anyTypeRejected => .anyTypeRejected
  | expressionBodyRejected => .expressionBodyRejected
  | returnNotLast => .returnNotLast
  | duplicateDeclaration _ => .duplicateDeclaration
  | duplicateParameter _ => .duplicateParameter
  | undeclaredReference _ => .undeclaredReference
  | typeMismatch _ _ => .typeMismatch
  | operatorTypeMismatch _ _ => .operatorTypeMismatch
  | infiniteType _ _ => .infiniteType
  | arityMismatch _ _ => .arityMismatch
  | notCallable _ => .notCallable
  | unsupportedOperator _ => .unsupportedOperator

/-- The details that fill the template of the problem's code. -/
def details : Problem → Details
  | unexpectedCharacter character => [("char", .text (String.singleton character))]
  | unexpectedToken expected found =>
    [("details", .text ("Expected " ++ expected ++ " but found " ++ found ++ "."))]
  | anyTypeRejected | expressionBodyRejected | returnNotLast => []
  | duplicateDeclaration name | duplicateParameter name | undeclaredReference name =>
    [("name", .text name)]
  | typeMismatch left right | infiniteType left right =>
    [("left", .text left), ("right", .text right)]
  | operatorTypeMismatch operator provided =>
    [("op", .text operator), ("provided_type", .text provided)]
  | arityMismatch expected provided =>
    [("expected", .number (.int expected)), ("provided", .number (.int provided))]
  | notCallable provided => [("provided_type", .text provided)]
  | unsupportedOperator operator => [("op", .text operator)]

/-- The text that reports the problem. -/
def message (problem : Problem) : String :=
  (fill problem.details problem.code.template).toOption.getD ""

/-- The facts of a problem fill every hole of the template of its code. -/
theorem message_fills (problem : Problem) :
    fill problem.details problem.code.template = .ok problem.message := by
  cases problem <;> rfl

end Problem

/-- A problem at an offset of the source. -/
structure Diagnostic where
  problem : Problem
  offset : Int
  deriving DecidableEq, Repr, Inhabited

namespace Diagnostic

/-- The kind of the problem. -/
def code (diagnostic : Diagnostic) : ErrorCode := diagnostic.problem.code

/-- The text that reports the problem. -/
def message (diagnostic : Diagnostic) : String := diagnostic.problem.message

end Diagnostic

/-- The text of an error that may be tied to an offset of the source. -/
def locatedMessage (offset : Option Int) (message : String) : String :=
  match offset with
  | some position => s!"Error at offset {position}: {message}"
  | none => message

end ArrowScript
