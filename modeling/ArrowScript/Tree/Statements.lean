import ArrowScript.Tree

/-!
# The statements of a tree

Statements stand at the top level and in function bodies at any depth. This module
lists them in the order of the source, each with the number of functions around it,
and changes the types that they carry.
-/

namespace ArrowScript

mutual

/-- All statements in an expression, with the number of functions around them. -/
def Expression.statements (depth : Nat) : Expression → List (Nat × Statement)
  | .number _ _ | .string _ _ | .boolean _ _ | .identifier _ => []
  | .array _ elements => Expression.statementsOf depth elements
  | .member _ object index => object.statements depth ++ index.statements depth
  | .binary _ left _ right => left.statements depth ++ right.statements depth
  | .conditional _ test consequent alternate =>
    test.statements depth ++ consequent.statements depth ++ alternate.statements depth
  | .arrow _ _ _ { statements, .. } => Statement.listed (depth + 1) statements
  | .call _ callee arguments =>
    callee.statements depth ++ Expression.statementsOf depth arguments

/-- All statements in several expressions. -/
def Expression.statementsOf (depth : Nat) : List Expression → List (Nat × Statement)
  | [] => []
  | expression :: rest => expression.statements depth ++ Expression.statementsOf depth rest

/-- All statements inside a statement. -/
def Statement.inside (depth : Nat) : Statement → List (Nat × Statement)
  | .constant _ _ _ initial _ => initial.statements depth
  | .returning _ (some argument) _ => argument.statements depth
  | .returning _ none _ => []

/-- The given statements, each followed by all statements inside it. -/
def Statement.listed (depth : Nat) : List Statement → List (Nat × Statement)
  | [] => []
  | statement :: rest =>
    (depth, statement) :: (statement.inside depth ++ Statement.listed depth rest)

end

/-- All statements of a program. -/
def Program.statements (program : Program) : List (Nat × Statement) :=
  Statement.listed 0 program.body

mutual

/-- Changes the types that statements in an expression carry. -/
def Expression.mapTypes (change : Ty → Ty) : Expression → Expression
  | .number offset value => .number offset value
  | .string offset value => .string offset value
  | .boolean offset value => .boolean offset value
  | .identifier identifier => .identifier identifier
  | .array offset elements => .array offset (Expression.mapTypesAll change elements)
  | .member offset object index =>
    .member offset (object.mapTypes change) (index.mapTypes change)
  | .binary offset left operator right =>
    .binary offset (left.mapTypes change) operator (right.mapTypes change)
  | .conditional offset test consequent alternate =>
    .conditional offset (test.mapTypes change) (consequent.mapTypes change)
      (alternate.mapTypes change)
  | .arrow offset params result { offset := opening, statements } =>
    .arrow offset params result
      { offset := opening, statements := Statement.mapTypesAll change statements }
  | .call offset callee arguments =>
    .call offset (callee.mapTypes change) (Expression.mapTypesAll change arguments)

/-- Changes the types that statements in several expressions carry. -/
def Expression.mapTypesAll (change : Ty → Ty) : List Expression → List Expression
  | [] => []
  | expression :: rest => expression.mapTypes change :: Expression.mapTypesAll change rest

/-- Changes the types that a statement and the statements inside it carry. -/
def Statement.mapTypes (change : Ty → Ty) : Statement → Statement
  | .constant offset id ascription initial inferred =>
    .constant offset id ascription (initial.mapTypes change) (inferred.map change)
  | .returning offset none inferred => .returning offset none (inferred.map change)
  | .returning offset (some argument) inferred =>
    .returning offset (some (argument.mapTypes change)) (inferred.map change)

/-- Changes the types that several statements and the statements inside them carry. -/
def Statement.mapTypesAll (change : Ty → Ty) : List Statement → List Statement
  | [] => []
  | statement :: rest => statement.mapTypes change :: Statement.mapTypesAll change rest

end

end ArrowScript
