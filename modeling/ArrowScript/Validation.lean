import ArrowScript.Problem
import ArrowScript.Tree.View

/-!
# Validation of function bodies

A return has to be the last statement of the function body in which it stands. Every
return before the last statement of a body is reported: functions in the order in
which they begin, and the returns of one function in the order of its body.

Returns at the top level are not restricted.
-/

namespace ArrowScript

/-- The returns of a body that are not its last statement. -/
def earlyReturns (body : List Statement) : List Diagnostic :=
  (body.dropLast.filter Statement.isReturn).map fun statement =>
    ⟨.returnNotLast, statement.offset⟩

mutual

/-- The misplaced returns of all functions in an expression. -/
def Expression.validate : Expression → List Diagnostic
  | .number _ _ | .string _ _ | .boolean _ _ | .identifier _ => []
  | .array _ elements => Expression.validateAll elements
  | .member _ object index => object.validate ++ index.validate
  | .binary _ left _ right => left.validate ++ right.validate
  | .conditional _ test consequent alternate =>
    test.validate ++ consequent.validate ++ alternate.validate
  | .arrow _ _ _ { statements, .. } => earlyReturns statements ++ Statement.validateAll statements
  | .call _ callee arguments => callee.validate ++ Expression.validateAll arguments

/-- The misplaced returns of all functions in several expressions. -/
def Expression.validateAll : List Expression → List Diagnostic
  | [] => []
  | expression :: rest => expression.validate ++ Expression.validateAll rest

/-- The misplaced returns of all functions in a statement. -/
def Statement.validate : Statement → List Diagnostic
  | .constant _ _ _ initial _ => initial.validate
  | .returning _ (some argument) _ => argument.validate
  | .returning _ none _ => []

/-- The misplaced returns of all functions in several statements. -/
def Statement.validateAll : List Statement → List Diagnostic
  | [] => []
  | statement :: rest => statement.validate ++ Statement.validateAll rest

end

/-- The misplaced returns of a program. -/
def Program.validate (program : Program) : List Diagnostic := Statement.validateAll program.body

/-- The misplaced returns of a node. A block is only restricted as the body of a
function. -/
def Node.validate : Node → List Diagnostic
  | .expression root => root.validate
  | .statement root => root.validate
  | .block root => Statement.validateAll root.statements
  | .program root => root.validate
  | .ascription _ | .parameter _ | .plain _ => []

end ArrowScript
