import ArrowScript.Proofs.Problems.Codes
import ArrowScript.Proofs.Scope.Linking

/-!
# What the name resolution leaves

The name resolution reports problems of names and nothing else. It changes nothing in the tree
but the links of its names, so the operators are those that were there before.
-/

namespace ArrowScript

/-- What is reported at an event is a problem of names. -/
theorem Resolver.problem_coded (event : Resolver.Event) :
    Coded ErrorCode.naming (Resolver.problem event).toList := by
  match event with
  | .used _ none => exact .one (.tail _ (.tail _ (.head _)))
  | .declared ⟨.constant, _, _, _⟩ none => exact .one (.head _)
  | .declared ⟨.parameter, _, _, _⟩ none => exact .one (.tail _ (.head _))
  | .used _ (some _) | .declared _ (some _) => exact .nil

variable (number : Site → Nat)

mutual

/-- The links of an expression do not change its operators. -/
theorem Expression.linked_additive (start : Nat) (levels : List Level) (expression : Expression)
    (additive : expression.Additive) : (expression.linked number start levels).Additive := by
  match expression with
  | .number _ _ | .string _ _ | .boolean _ _ | .identifier _ => trivial
  | .array _ elements => exact Expression.linkedAll_additive _ _ elements additive
  | .member _ object index =>
    exact ⟨object.linked_additive _ _ additive.1, index.linked_additive _ _ additive.2⟩
  | .binary _ left _ right =>
    obtain ⟨leftAdditive, plus, rightAdditive⟩ := additive
    exact ⟨left.linked_additive _ _ leftAdditive, plus, right.linked_additive _ _ rightAdditive⟩
  | .conditional _ test consequent alternate =>
    obtain ⟨first, second, third⟩ := additive
    exact ⟨test.linked_additive _ _ first, consequent.linked_additive _ _ second,
      alternate.linked_additive _ _ third⟩
  | .arrow _ _ _ { statements, .. } =>
    exact Statement.linkedAll_additive _ _ _ statements additive
  | .call _ callee arguments =>
    exact ⟨callee.linked_additive _ _ additive.1,
      Expression.linkedAll_additive _ _ arguments additive.2⟩

/-- The links of several expressions do not change their operators. -/
theorem Expression.linkedAll_additive (start : Nat) (levels : List Level)
    (expressions : List Expression) (additive : Expression.AdditiveAll expressions) :
    Expression.AdditiveAll (Expression.linkedAll number start levels expressions) := by
  match expressions with
  | [] => trivial
  | expression :: rest =>
    exact ⟨expression.linked_additive _ _ additive.1,
      Expression.linkedAll_additive _ _ rest additive.2⟩

/-- The links of a statement do not change its operators. -/
theorem Statement.linked_additive (start : Nat) (level : Level) (outer : List Level)
    (statement : Statement) (additive : statement.Additive) :
    (statement.linked number start level outer).Additive := by
  match statement with
  | .constant _ _ _ initial _ => exact initial.linked_additive _ _ additive
  | .returning _ none _ => trivial
  | .returning _ (some argument) _ => exact argument.linked_additive _ _ additive

/-- The links of several statements do not change their operators. -/
theorem Statement.linkedAll_additive (start : Nat) (level : Level) (outer : List Level)
    (statements : List Statement) (additive : Statement.AdditiveAll statements) :
    Statement.AdditiveAll (Statement.linkedAll number start level outer statements) := by
  match statements with
  | [] => trivial
  | statement :: rest =>
    exact ⟨statement.linked_additive _ _ _ additive.1,
      Statement.linkedAll_additive _ _ _ rest additive.2⟩

end

/-- What is reported of a program are problems of names. -/
theorem Program.resolve_coded (program : Program) :
    Coded ErrorCode.naming program.resolve.diagnostics := by
  rw [program.resolve_eq]
  intro diagnostic member
  obtain ⟨event, _, reported⟩ := List.mem_filterMap.mp member
  exact Resolver.problem_coded event diagnostic (Option.mem_toList.mpr reported)

/-- A program whose names are resolved has the operators that it had before. -/
theorem Program.resolve_additive {program : Program}
    (additive : Statement.AdditiveAll program.body) :
    Statement.AdditiveAll program.resolve.program.body := by
  rw [program.resolve_eq]
  exact Statement.linkedAll_additive _ _ _ _ program.body additive

end ArrowScript
