import ArrowScript.Proofs.Tree.Revisions
import ArrowScript.Ty.Inference

/-!
# Inference covers every statement

Whatever problems a walk meets, it has walked over all parts of a node before it reports
one. So every statement of a tree is met, those in arguments of a call that cannot be made
as well as those behind a return, and each gets a type.
-/

namespace ArrowScript

/-- Listed statements that all have a type. -/
def Typed (entries : List (Nat × Statement)) : Prop :=
  ∀ entry ∈ entries, entry.2.inferred.isSome

/-- No statements. -/
theorem Typed.nil : Typed [] := nofun

/-- Statements of two parts of a tree. -/
theorem Typed.append {entries others : List (Nat × Statement)} (first : Typed entries)
    (second : Typed others) : Typed (entries ++ others) :=
  List.forall_mem_append.mpr ⟨first, second⟩

namespace Inferrer

/-! ## Answers -/

variable {α β : Type} {walk : Inferrer α} {next : α → Inferrer β} {First : α → Prop}
  {Last : β → Prop}

/-- Every answer of a walk satisfies a condition, in whatever state it begins. -/
def Answers (walk : Inferrer α) (Holds : α → Prop) : Prop :=
  ∀ inference, Holds (walk.run inference).1

namespace Answers

/-- A result. -/
theorem pure {result : α} (holds : First result) : Answers (pure result) First :=
  fun _ => holds

/-- Nothing is said of the answers. -/
theorem any : Answers walk fun _ => True := fun _ => trivial

/-- Two walks, one after the other. -/
theorem bind (first : Answers walk First)
    (second : ∀ result, First result → Answers (next result) Last) :
    Answers (walk >>= next) Last :=
  fun inference => second _ (first inference) _

/-- A choice. -/
theorem ite {condition : Prop} [Decidable condition] {other : Inferrer α}
    (positive : Answers walk First) (negative : Answers other First) :
    Answers (if condition then walk else other) First := by
  split
  · exact positive
  · exact negative

/-- A walk in a scope of its own. -/
theorem inNewScope (answers : Answers walk First) : Answers (inNewScope walk) First :=
  fun inference => answers inference

end Answers

/-! ## Typed trees -/

mutual

/-- The walk over an expression changes only its types, and leaves no statement without
one. -/
theorem inferExpression_typed (expression : Expression) :
    Answers (inferExpression expression) fun answer =>
      answer.1.revised .untyped = expression.revised .untyped ∧
        ∀ depth, Typed (answer.1.statements depth) := by
  match expression with
  | .number _ _ | .string _ _ | .boolean _ _ => exact .pure ⟨rfl, fun _ => .nil⟩
  | .identifier _ => exact .bind .any fun _ _ => .pure ⟨rfl, fun _ => .nil⟩
  | .array _ [] => exact .bind .any fun _ _ => .pure ⟨rfl, fun _ => .nil⟩
  | .array offset (first :: rest) =>
    refine .bind (inferExpression_typed first) fun (first, element) ⟨firstSame, firstTyped⟩ =>
      .bind (inferElements_typed element rest) fun rest ⟨restSame, restTyped⟩ => .pure ⟨?_, ?_⟩
    · simp only [Expression.revised, Expression.revisedAll, firstSame, restSame]
    · exact fun depth => (firstTyped depth).append (restTyped depth)
  | .member offset object index =>
    refine .bind (inferExpression_typed object) fun (object, _) ⟨objectSame, objectTyped⟩ =>
      .bind (inferExpression_typed index) fun (index, _) ⟨indexSame, indexTyped⟩ =>
        .bind .any fun _ _ => .bind .any fun _ _ => .bind .any fun _ _ => .pure ⟨?_, ?_⟩
    · simp only [Expression.revised, objectSame, indexSame]
    · exact fun depth => (objectTyped depth).append (indexTyped depth)
  | .binary offset first operator second =>
    refine .bind (inferExpression_typed first) fun (left, _) ⟨leftSame, leftTyped⟩ =>
      .bind (inferExpression_typed second) fun (right, _) ⟨rightSame, rightTyped⟩ => ?_
    have same : (Expression.binary offset left operator right).revised .untyped =
        (Expression.binary offset first operator second).revised .untyped := by
      simp only [Expression.revised, leftSame, rightSame]
    have typed (depth : Nat) :
        Typed ((Expression.binary offset left operator right).statements depth) :=
      (leftTyped depth).append (rightTyped depth)
    exact .ite (.bind .any fun _ _ => .pure ⟨same, typed⟩)
      (.bind .any fun _ _ => .bind .any fun _ _ => .pure ⟨same, typed⟩)
  | .conditional offset test consequent alternate =>
    refine .bind (inferExpression_typed test) fun (test, _) ⟨testSame, testTyped⟩ =>
      .bind .any fun _ _ =>
        .bind (inferExpression_typed consequent)
          fun (consequent, _) ⟨consequentSame, consequentTyped⟩ =>
        .bind (inferExpression_typed alternate)
          fun (alternate, _) ⟨alternateSame, alternateTyped⟩ =>
        .bind .any fun _ _ => .bind .any fun _ _ => .bind .any fun _ _ => .pure ⟨?_, ?_⟩
    · simp only [Expression.revised, testSame, consequentSame, alternateSame]
    · exact fun depth =>
        ((testTyped depth).append (consequentTyped depth)).append (alternateTyped depth)
  | .arrow offset params result { offset := opening, statements } =>
    refine .inNewScope (.bind .any fun _ _ =>
      .bind (inferStatements_typed statements) fun body ⟨same, typed⟩ => .bind .any fun _ _ =>
        .pure ⟨?_, fun depth => typed (depth + 1)⟩)
    simp only [Expression.revised, same]
  | .call offset callee arguments =>
    refine .bind (inferExpression_typed callee) fun (callee, _) ⟨calleeSame, calleeTyped⟩ =>
      .bind .any fun _ _ =>
        .bind (inferArguments_typed arguments) fun arguments ⟨same, typed⟩ =>
          .bind .any fun _ _ => .pure ⟨?_, ?_⟩
    · simp only [Expression.revised, calleeSame, same]
    · exact fun depth => (calleeTyped depth).append (typed depth)

/-- The walk over further elements changes only their types. -/
theorem inferElements_typed (element : Ty) (expressions : List Expression) :
    Answers (inferElements element expressions) fun answer =>
      Expression.revisedAll .untyped answer = Expression.revisedAll .untyped expressions ∧
        ∀ depth, Typed (Expression.statementsOf depth answer) := by
  match expressions with
  | [] => exact .pure ⟨rfl, fun _ => .nil⟩
  | expression :: rest =>
    refine .bind (inferExpression_typed expression) fun (expression, _) ⟨same, typed⟩ =>
      .bind .any fun _ _ =>
        .bind (inferElements_typed element rest) fun rest ⟨restSame, restTyped⟩ =>
          .pure ⟨?_, fun depth => (typed depth).append (restTyped depth)⟩
    simp only [Expression.revisedAll, same, restSame]

/-- The walk over arguments changes only their types. -/
theorem inferArguments_typed (expressions : List Expression) :
    Answers (inferArguments expressions) fun answer =>
      Expression.revisedAll .untyped (answer.map (·.1)) =
          Expression.revisedAll .untyped expressions ∧
        ∀ depth, Typed (Expression.statementsOf depth (answer.map (·.1))) := by
  match expressions with
  | [] => exact .pure ⟨rfl, fun _ => .nil⟩
  | expression :: rest =>
    refine .bind (inferExpression_typed expression) fun inferred ⟨same, typed⟩ =>
      .bind (inferArguments_typed rest) fun rest ⟨restSame, restTyped⟩ =>
        .pure ⟨?_, fun depth => (typed depth).append (restTyped depth)⟩
    simp only [List.map_cons, Expression.revisedAll, same, restSame]

/-- The walk over a statement changes only types, and gives it one. -/
theorem inferStatement_typed (statement : Statement) :
    Answers (inferStatement statement) fun answer =>
      answer.1.revised .untyped = statement.revised .untyped ∧ answer.1.inferred.isSome ∧
        ∀ depth, Typed (answer.1.inside depth) := by
  match statement with
  | .constant offset id none initial _ =>
    refine .bind (inferExpression_typed initial) fun (initial, _) ⟨same, typed⟩ =>
      .bind .any fun _ _ => .bind .any fun _ _ => .pure ⟨?_, rfl, typed⟩
    simp only [Statement.revised, same]
    rfl
  | .constant offset id (some _) initial _ =>
    refine .bind (inferExpression_typed initial) fun (initial, _) ⟨same, typed⟩ =>
      .bind .any fun _ _ => .bind .any fun _ _ => .bind .any fun _ _ => .bind .any fun _ _ =>
        .pure ⟨?_, rfl, typed⟩
    simp only [Statement.revised, same]
    rfl
  | .returning _ none _ => exact .pure ⟨rfl, rfl, fun _ => .nil⟩
  | .returning offset (some argument) _ =>
    refine .bind (inferExpression_typed argument) fun (argument, _) ⟨same, typed⟩ =>
      .pure ⟨?_, rfl, typed⟩
    simp only [Statement.revised, same]
    rfl

/-- The walk over several statements changes only types, and gives one to each. -/
theorem inferStatements_typed (statements : List Statement) :
    Answers (inferStatements statements) fun answer =>
      Statement.revisedAll .untyped (answer.map (·.1)) =
          Statement.revisedAll .untyped statements ∧
        ∀ depth, Typed (Statement.listed depth (answer.map (·.1))) := by
  match statements with
  | [] => exact .pure ⟨rfl, fun _ => .nil⟩
  | statement :: rest =>
    refine .bind (inferStatement_typed statement) fun inferred ⟨same, filled, typed⟩ =>
      .bind (inferStatements_typed rest) fun rest ⟨restSame, restTyped⟩ => .pure ⟨?_, ?_⟩
    · simp only [List.map_cons, Statement.revisedAll, same, restSame]
    · exact fun depth => List.forall_mem_cons.mpr
        ⟨filled, (typed depth).append (restTyped depth)⟩

end

end Inferrer

end ArrowScript
