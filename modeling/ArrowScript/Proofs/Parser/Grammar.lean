import ArrowScript.Token.Lexing
import ArrowScript.Tree

/-!
# The grammar

Every rule relates a list of tokens to the tree that it stands for. The relations say
nothing of an order in which the tokens are read: a rule holds of the lists that can be
cut into the parts it names. Parts that repeat have rules of their own, which take the
rule for one part as an argument.

Two things are fixed by the rules and not by the parts: sums associate to the left, and
an index or an argument list applies to all of the operand before it. Conditionals
associate to the right, since both branches are whole expressions and the test is not.
-/

namespace ArrowScript

/-- The value of a token is one that its kind has. The end of a source is no lexeme. -/
def Token.Lexed (token : Token) : Prop :=
  match token.kind with
  | .number => ∃ value, token.value = .number value
  | .trueKeyword => token.value = .boolean true
  | .falseKeyword => token.value = .boolean false
  | .endOfFile | .unrecognized _ => False
  | _ => ∃ text, token.value = .text text

namespace Grammar

/-- A part that may be left out. -/
inductive Optional {α : Type} (Part : List Token → α → Prop) : List Token → Option α → Prop where
  | absent : Optional Part [] none
  | present {tokens : List Token} {tree : α} (part : Part tokens tree) :
      Optional Part tokens (some tree)

/-- Items with a comma before each of them. -/
inductive Following {α : Type} (Item : List Token → α → Prop) : List Token → List α → Prop where
  | none : Following Item [] []
  | item {comma : Token} {tokens others : List Token} {tree : α} {trees : List α}
      (separator : comma.kind = .comma) (first : Item tokens tree)
      (following : Following Item others trees) :
      Following Item (comma :: tokens ++ others) (tree :: trees)

/-- Items separated by commas, or none at all. -/
inductive Enumeration {α : Type} (Item : List Token → α → Prop) :
    List Token → List α → Prop where
  | none : Enumeration Item [] []
  | items {tokens others : List Token} {tree : α} {trees : List α}
      (first : Item tokens tree) (following : Following Item others trees) :
      Enumeration Item (tokens ++ others) (tree :: trees)

/-! ## Types -/

/-- Pairs of brackets after a type, each making it an array type. -/
inductive Marks : List Token → Ascription → Ascription → Prop where
  | none {element : Ascription} : Marks [] element element
  | mark {opening closing : Token} {others : List Token} {element result : Ascription}
      (opens : opening.kind = .leftBracket) (closes : closing.kind = .rightBracket)
      (marks : Marks others (.array element.offset element) result) :
      Marks (opening :: closing :: others) element result

mutual

/-- A type that begins with a name. The name `any` is refused where `rejectAny` holds. -/
inductive SimpleType (rejectAny : Bool) : List Token → Ascription → Prop where
  | primitive {word : Token} (kind : word.kind.isPrimitiveType) :
      SimpleType rejectAny [word] (.named word.offset word.text)
  | named {name : Token} (kind : name.kind = .identifier)
      (allowed : rejectAny → name.text ≠ "any") :
      SimpleType rejectAny [name] (.named name.offset name.text)
  | array {word opening closing : Token} {inner : List Token} {element : Ascription}
      (kind : word.kind = .typeArray) (opens : opening.kind = .lessThan)
      (elements : TypeOf rejectAny inner element) (closes : closing.kind = .greaterThan) :
      SimpleType rejectAny (word :: opening :: inner ++ [closing]) (.array word.offset element)

/-- A type: a simple one with brackets after it, or a function type. -/
inductive TypeOf (rejectAny : Bool) : List Token → Ascription → Prop where
  | simple {tokens brackets : List Token} {simple result : Ascription}
      (first : SimpleType rejectAny tokens simple) (marks : Marks brackets simple result) :
      TypeOf rejectAny (tokens ++ brackets) result
  | function {opening closing arrow : Token} {inner output : List Token}
      {params : List Parameter} {result : Ascription}
      (opens : opening.kind = .leftParen)
      (inputs : Enumeration (ParameterOf rejectAny) inner params)
      (closes : closing.kind = .rightParen) (points : arrow.kind = .arrow)
      (outputs : TypeOf rejectAny output result) :
      TypeOf rejectAny (opening :: inner ++ closing :: arrow :: output)
        (.function opening.offset params result)

/-- A colon and a type after it. -/
inductive AnnotationOf (rejectAny : Bool) : List Token → Ascription → Prop where
  | colon {colon : Token} {tokens : List Token} {ascription : Ascription}
      (kind : colon.kind = .colon) (type : TypeOf rejectAny tokens ascription) :
      AnnotationOf rejectAny (colon :: tokens) ascription

/-- A parameter: a name, and what follows the colon behind it if there is one. -/
inductive ParameterOf (rejectAny : Bool) : List Token → Parameter → Prop where
  | parameter {name : Token} {tokens : List Token} {ascription : Option Ascription}
      (kind : name.kind = .identifier)
      (annotated : Optional (AnnotationOf rejectAny) tokens ascription) :
      ParameterOf rejectAny (name :: tokens)
        { offset := name.offset, name := name.text, ascription }

end

/-- The part of an arrow function before its arrow. -/
inductive ArrowHead (rejectAny : Bool) :
    List Token → List Parameter × Option Ascription → Prop where
  | head {opening closing : Token} {inner output : List Token}
      {params : List Parameter} {result : Option Ascription}
      (opens : opening.kind = .leftParen)
      (inputs : Enumeration (ParameterOf rejectAny) inner params)
      (closes : closing.kind = .rightParen)
      (annotated : Optional (AnnotationOf rejectAny) output result) :
      ArrowHead rejectAny (opening :: inner ++ closing :: output) (params, result)

/-! ## Expressions and statements -/

/-- Argument lists and indices, applied from left to right. -/
inductive Applications (Nested : List Token → Expression → Prop) :
    List Token → Expression → Expression → Prop where
  | none {applied : Expression} : Applications Nested [] applied applied
  | call {opening closing : Token} {inner others : List Token} {arguments : List Expression}
      {applied result : Expression}
      (opens : opening.kind = .leftParen) (inputs : Enumeration Nested inner arguments)
      (closes : closing.kind = .rightParen)
      (following : Applications Nested others (.call applied.offset applied arguments) result) :
      Applications Nested (opening :: inner ++ closing :: others) applied result
  | index {opening closing : Token} {inner others : List Token} {index : Expression}
      {applied result : Expression}
      (opens : opening.kind = .leftBracket) (inside : Nested inner index)
      (closes : closing.kind = .rightBracket)
      (following : Applications Nested others (.member applied.offset applied index) result) :
      Applications Nested (opening :: inner ++ closing :: others) applied result

/-- Operands with a plus sign before each of them, added from left to right. -/
inductive Sums (Operand : List Token → Expression → Prop) :
    List Token → Expression → Expression → Prop where
  | none {left : Expression} : Sums Operand [] left left
  | plus {operator : Token} {tokens others : List Token} {left right result : Expression}
      (kind : operator.kind = .plus) (operand : Operand tokens right)
      (following : Sums Operand others (.binary left.offset left operator.text right) result) :
      Sums Operand (operator :: tokens ++ others) left result

/-- Statements and stray semicolons in any order. -/
inductive Sequence (Item : List Token → Statement → Prop) :
    List Token → List Statement → Prop where
  | none : Sequence Item [] []
  | semicolon {semicolon : Token} {others : List Token} {trees : List Statement}
      (kind : semicolon.kind = .semicolon) (following : Sequence Item others trees) :
      Sequence Item (semicolon :: others) trees
  | statement {tokens others : List Token} {tree : Statement} {trees : List Statement}
      (first : Item tokens tree) (following : Sequence Item others trees) :
      Sequence Item (tokens ++ others) (tree :: trees)

/-- A token that may stand at the end of a rule. -/
inductive Closing (kind : TokenKind) : List Token → Prop where
  | absent : Closing kind []
  | present {token : Token} (same : token.kind = kind) : Closing kind [token]

mutual

/-- An expression that is not composed, or one between brackets or parentheses. -/
inductive PrimaryOf : List Token → Expression → Prop where
  | number {literal : Token} {value : Numeral} (kind : literal.kind = .number)
      (denotes : literal.value = .number value) :
      PrimaryOf [literal] (.number literal.offset value)
  | string {literal : Token} (kind : literal.kind = .string) :
      PrimaryOf [literal] (.string literal.offset literal.text)
  | truth {literal : Token} (kind : literal.kind = .trueKeyword)
      (denotes : literal.value = .boolean true) :
      PrimaryOf [literal] (.boolean literal.offset true)
  | falsity {literal : Token} (kind : literal.kind = .falseKeyword)
      (denotes : literal.value = .boolean false) :
      PrimaryOf [literal] (.boolean literal.offset false)
  | identifier {name : Token} (kind : name.kind = .identifier) :
      PrimaryOf [name] (.identifier { offset := name.offset, name := name.text })
  | array {opening closing : Token} {inner : List Token} {elements : List Expression}
      (opens : opening.kind = .leftBracket) (items : Enumeration ExpressionOf inner elements)
      (closes : closing.kind = .rightBracket) :
      PrimaryOf (opening :: inner ++ [closing]) (.array opening.offset elements)
  | parenthesized {opening closing : Token} {inner : List Token} {tree : Expression}
      (opens : opening.kind = .leftParen) (inside : ExpressionOf inner tree)
      (closes : closing.kind = .rightParen) :
      PrimaryOf (opening :: inner ++ [closing]) tree

/-- The body of an arrow function. -/
inductive BlockOf : List Token → Block → Prop where
  | braces {opening closing : Token} {inner : List Token} {statements : List Statement}
      (opens : opening.kind = .leftCurly) (items : Sequence StatementOf inner statements)
      (closes : closing.kind = .rightCurly) :
      BlockOf (opening :: inner ++ [closing]) { offset := opening.offset, statements }

/-- An arrow function, or a primary expression with what is applied to it. -/
inductive OperandOf : List Token → Expression → Prop where
  | arrow {opening arrow : Token} {head inner : List Token} {params : List Parameter}
      {result : Option Ascription} {body : Block}
      (heading : ArrowHead true (opening :: head) (params, result))
      (points : arrow.kind = .arrow) (block : BlockOf inner body) :
      OperandOf (opening :: head ++ arrow :: inner) (.arrow opening.offset params result body)
  | applied {tokens others : List Token} {first result : Expression}
      (primary : PrimaryOf tokens first)
      (applications : Applications ExpressionOf others first result) :
      OperandOf (tokens ++ others) result

/-- Operands joined by plus signs. -/
inductive BinaryOf : List Token → Expression → Prop where
  | sum {tokens others : List Token} {first result : Expression}
      (operand : OperandOf tokens first) (sums : Sums OperandOf others first result) :
      BinaryOf (tokens ++ others) result

/-- An expression: a sum, or a conditional with a sum for its test. -/
inductive ExpressionOf : List Token → Expression → Prop where
  | binary {tokens : List Token} {tree : Expression} (sum : BinaryOf tokens tree) :
      ExpressionOf tokens tree
  | conditional {question colon : Token} {first second third : List Token}
      {test consequent alternate : Expression}
      (tests : BinaryOf first test) (asks : question.kind = .question)
      (positive : ExpressionOf second consequent) (splits : colon.kind = .colon)
      (negative : ExpressionOf third alternate) :
      ExpressionOf (first ++ question :: second ++ colon :: third)
        (.conditional test.offset test consequent alternate)

/-- A declaration or a return. The semicolon at its end may be left out. -/
inductive StatementOf : List Token → Statement → Prop where
  | constant {keyword name equal : Token} {tokens annotation ending : List Token}
      {annotated : Option Ascription} {initial : Expression}
      (kind : keyword.kind = .constKeyword) (names : name.kind = .identifier)
      (types : Optional (AnnotationOf true) annotation annotated)
      (equals : equal.kind = .equal) (value : ExpressionOf tokens initial)
      (ends : Closing .semicolon ending) :
      StatementOf (keyword :: name :: annotation ++ equal :: tokens ++ ending)
        (.constant keyword.offset { offset := name.offset, name := name.text } annotated initial)
  | returning {keyword : Token} {tokens ending : List Token} {argument : Option Expression}
      (kind : keyword.kind = .returnKeyword) (value : Optional ExpressionOf tokens argument)
      (ends : Closing .semicolon ending) :
      StatementOf (keyword :: tokens ++ ending) (.returning keyword.offset argument)

end

/-- A program: statements and stray semicolons up to the end of the source. -/
def ProgramOf (tokens : List Token) (program : Program) : Prop :=
  Sequence StatementOf tokens program.body ∧ program.offset = 0

end Grammar

end ArrowScript
