import Mathlib.Logic.Basic
import ArrowScript.Tree.Statements

/-!
# Revisions of a tree

The analyses of a tree fill two kinds of slots: the links of identifiers and parameters,
and the types of statements. A revision says what is done to the slots of each kind, and
nothing else of the tree changes. Revisions of one tree, one after the other, are one
revision, and changing the types of a tree is one as well.

A tree without its slots is what all analyses of it have in common. The links inside of
ascriptions are no slots, since no analysis fills them.
-/

namespace ArrowScript

/-- What is done to the slots of a tree. -/
structure Revision where
  link : Option Link → Option Link
  type : Option Ty → Option Ty

namespace Revision

/-- All slots are emptied. -/
def bare : Revision := ⟨fun _ => none, fun _ => none⟩

/-- The links are removed. -/
def unlinked : Revision := ⟨fun _ => none, id⟩

/-- The types are removed. -/
def untyped : Revision := ⟨id, fun _ => none⟩

/-- The types are changed. -/
def types (change : Ty → Ty) : Revision := ⟨id, Option.map change⟩

/-- What a revision does to the links alone. -/
def links (revision : Revision) : Revision := ⟨revision.link, id⟩

/-- Two revisions, one after the other. -/
def andThen (first second : Revision) : Revision :=
  ⟨second.link ∘ first.link, second.type ∘ first.type⟩

end Revision

/-! ## Revised trees -/

/-- An identifier with its slot revised. -/
def Identifier.revised (revision : Revision) (id : Identifier) : Identifier :=
  { id with declaration := revision.link id.declaration }

/-- A parameter with its slot revised. -/
def Parameter.revised (revision : Revision) (param : Parameter) : Parameter :=
  { param with declaration := revision.link param.declaration }

mutual

/-- An expression with its slots revised. -/
def Expression.revised (revision : Revision) : Expression → Expression
  | .number offset value => .number offset value
  | .string offset value => .string offset value
  | .boolean offset value => .boolean offset value
  | .identifier identifier => .identifier (identifier.revised revision)
  | .array offset elements => .array offset (Expression.revisedAll revision elements)
  | .member offset object index =>
    .member offset (object.revised revision) (index.revised revision)
  | .binary offset left operator right =>
    .binary offset (left.revised revision) operator (right.revised revision)
  | .conditional offset test consequent alternate =>
    .conditional offset (test.revised revision) (consequent.revised revision)
      (alternate.revised revision)
  | .arrow offset params result { offset := opening, statements } =>
    .arrow offset (params.map (·.revised revision)) result
      { offset := opening, statements := Statement.revisedAll revision statements }
  | .call offset callee arguments =>
    .call offset (callee.revised revision) (Expression.revisedAll revision arguments)

/-- Several expressions with their slots revised. -/
def Expression.revisedAll (revision : Revision) : List Expression → List Expression
  | [] => []
  | expression :: rest => expression.revised revision :: Expression.revisedAll revision rest

/-- A statement with its slots revised. -/
def Statement.revised (revision : Revision) : Statement → Statement
  | .constant offset id ascription initial inferred =>
    .constant offset (id.revised revision) ascription (initial.revised revision)
      (revision.type inferred)
  | .returning offset none inferred => .returning offset none (revision.type inferred)
  | .returning offset (some argument) inferred =>
    .returning offset (some (argument.revised revision)) (revision.type inferred)

/-- Several statements with their slots revised. -/
def Statement.revisedAll (revision : Revision) : List Statement → List Statement
  | [] => []
  | statement :: rest => statement.revised revision :: Statement.revisedAll revision rest

end

/-- A program with its slots revised. -/
def Program.revised (revision : Revision) (program : Program) : Program :=
  { program with body := Statement.revisedAll revision program.body }

variable (revision first second : Revision)

/-! ## What a revision keeps -/

/-- Several expressions are revised one by one. -/
theorem Expression.revisedAll_eq_map (expressions : List Expression) :
    Expression.revisedAll revision expressions = expressions.map (·.revised revision) := by
  induction expressions with
  | nil => rfl
  | cons expression rest inductionHypothesis =>
    rw [Expression.revisedAll, inductionHypothesis, List.map_cons]

/-- Several statements are revised one by one. -/
theorem Statement.revisedAll_eq_map (statements : List Statement) :
    Statement.revisedAll revision statements = statements.map (·.revised revision) := by
  induction statements with
  | nil => rfl
  | cons statement rest inductionHypothesis =>
    rw [Statement.revisedAll, inductionHypothesis, List.map_cons]

/-- A revised expression stands at the same offset. -/
@[simp]
theorem Expression.offset_revised (expression : Expression) :
    (expression.revised revision).offset = expression.offset := by
  match expression with
  | .number _ _ | .string _ _ | .boolean _ _ | .identifier _ | .array _ _ | .member _ _ _
  | .binary _ _ _ _ | .conditional _ _ _ _ | .arrow _ _ _ ⟨_, _⟩ | .call _ _ _ => rfl

/-- A revised return is a return. -/
@[simp]
theorem Statement.isReturn_revised (statement : Statement) :
    (statement.revised revision).isReturn = statement.isReturn := by
  match statement with
  | .constant _ _ _ _ _ | .returning _ none _ | .returning _ (some _) _ => rfl

/-- The type of a revised statement. -/
@[simp]
theorem Statement.inferred_revised (statement : Statement) :
    (statement.revised revision).inferred = revision.type statement.inferred := by
  match statement with
  | .constant _ _ _ _ _ | .returning _ none _ | .returning _ (some _) _ => rfl

/-! ## The statements of a revised tree -/

/-- A listed statement with its slots revised. -/
def Revision.entry (entry : Nat × Statement) : Nat × Statement :=
  (entry.1, entry.2.revised revision)

mutual

/-- The statements of a revised expression are its statements, revised. -/
theorem Expression.statements_revised (depth : Nat) (expression : Expression) :
    (expression.revised revision).statements depth =
      (expression.statements depth).map revision.entry := by
  match expression with
  | .number _ _ | .string _ _ | .boolean _ _ | .identifier _ => rfl
  | .array _ elements => exact Expression.statementsOf_revised depth elements
  | .member _ object index =>
    simp only [Expression.revised, Expression.statements, List.map_append,
      Expression.statements_revised depth object, Expression.statements_revised depth index]
  | .binary _ left _ right =>
    simp only [Expression.revised, Expression.statements, List.map_append,
      Expression.statements_revised depth left, Expression.statements_revised depth right]
  | .conditional _ test consequent alternate =>
    simp only [Expression.revised, Expression.statements, List.map_append,
      Expression.statements_revised depth test, Expression.statements_revised depth consequent,
      Expression.statements_revised depth alternate]
  | .arrow _ _ _ { statements, .. } => exact Statement.listed_revised (depth + 1) statements
  | .call _ callee arguments =>
    simp only [Expression.revised, Expression.statements, List.map_append,
      Expression.statements_revised depth callee, Expression.statementsOf_revised depth arguments]

/-- The statements of several revised expressions are their statements, revised. -/
theorem Expression.statementsOf_revised (depth : Nat) (expressions : List Expression) :
    Expression.statementsOf depth (Expression.revisedAll revision expressions) =
      (Expression.statementsOf depth expressions).map revision.entry := by
  match expressions with
  | [] => rfl
  | expression :: rest =>
    simp only [Expression.revisedAll, Expression.statementsOf, List.map_append,
      Expression.statements_revised depth expression, Expression.statementsOf_revised depth rest]

/-- The statements inside a revised statement are those inside it, revised. -/
theorem Statement.inside_revised (depth : Nat) (statement : Statement) :
    (statement.revised revision).inside depth = (statement.inside depth).map revision.entry := by
  match statement with
  | .constant _ _ _ initial _ => exact Expression.statements_revised depth initial
  | .returning _ none _ => rfl
  | .returning _ (some argument) _ => exact Expression.statements_revised depth argument

/-- The statements of a revised body are its statements, revised. -/
theorem Statement.listed_revised (depth : Nat) (statements : List Statement) :
    Statement.listed depth (Statement.revisedAll revision statements) =
      (Statement.listed depth statements).map revision.entry := by
  match statements with
  | [] => rfl
  | statement :: rest =>
    simp only [Statement.revisedAll, Statement.listed, List.map_cons, List.map_append,
      Statement.inside_revised depth statement, Statement.listed_revised depth rest,
      Revision.entry]

end

/-! ## Revisions of revised trees -/

mutual

/-- An expression that is revised twice. -/
theorem Expression.revised_revised (expression : Expression) :
    (expression.revised first).revised second = expression.revised (first.andThen second) := by
  match expression with
  | .number _ _ | .string _ _ | .boolean _ _ | .identifier _ => rfl
  | .array offset elements =>
    exact congrArg (Expression.array offset) (Expression.revisedAll_revisedAll elements)
  | .member offset object index =>
    exact congrArg₂ (Expression.member offset) (Expression.revised_revised object)
      (Expression.revised_revised index)
  | .binary offset left operator right =>
    exact congrArg₂ (Expression.binary offset · operator ·) (Expression.revised_revised left)
      (Expression.revised_revised right)
  | .conditional offset test consequent alternate =>
    simp only [Expression.revised, Expression.revised_revised test,
      Expression.revised_revised consequent, Expression.revised_revised alternate]
  | .arrow offset params result { offset := opening, statements } =>
    have revisedTwice : (params.map (·.revised first)).map (·.revised second) =
        params.map (·.revised (first.andThen second)) := List.map_map ..
    exact congrArg₂ (fun params statements =>
        Expression.arrow offset params result ⟨opening, statements⟩)
      revisedTwice (Statement.revisedAll_revisedAll statements)
  | .call offset callee arguments =>
    exact congrArg₂ (Expression.call offset) (Expression.revised_revised callee)
      (Expression.revisedAll_revisedAll arguments)

/-- Several expressions that are revised twice. -/
theorem Expression.revisedAll_revisedAll (expressions : List Expression) :
    Expression.revisedAll second (Expression.revisedAll first expressions) =
      Expression.revisedAll (first.andThen second) expressions := by
  match expressions with
  | [] => rfl
  | expression :: rest =>
    exact congrArg₂ List.cons (Expression.revised_revised expression)
      (Expression.revisedAll_revisedAll rest)

/-- A statement that is revised twice. -/
theorem Statement.revised_revised (statement : Statement) :
    (statement.revised first).revised second = statement.revised (first.andThen second) := by
  match statement with
  | .constant offset id ascription initial inferred =>
    exact congrArg (fun initial => Statement.constant offset
      (id.revised (first.andThen second)) ascription initial (second.type (first.type inferred)))
      (Expression.revised_revised initial)
  | .returning _ none _ => rfl
  | .returning offset (some argument) inferred =>
    exact congrArg (fun argument =>
        Statement.returning offset (some argument) (second.type (first.type inferred)))
      (Expression.revised_revised argument)

/-- Several statements that are revised twice. -/
theorem Statement.revisedAll_revisedAll (statements : List Statement) :
    Statement.revisedAll second (Statement.revisedAll first statements) =
      Statement.revisedAll (first.andThen second) statements := by
  match statements with
  | [] => rfl
  | statement :: rest =>
    exact congrArg₂ List.cons (Statement.revised_revised statement)
      (Statement.revisedAll_revisedAll rest)

end

/-- A program that is revised twice. -/
theorem Program.revised_revised (program : Program) :
    (program.revised first).revised second = program.revised (first.andThen second) :=
  congrArg (Program.mk program.offset) (Statement.revisedAll_revisedAll first second program.body)

/-- A parameter has no type to be changed. -/
theorem Parameter.revised_types (change : Ty → Ty) (param : Parameter) :
    param.revised (.types change) = param := by
  cases param
  rfl

mutual

/-- Changing the types in an expression is a revision. -/
theorem Expression.mapTypes_eq_revised (change : Ty → Ty) (expression : Expression) :
    expression.mapTypes change = expression.revised (.types change) := by
  match expression with
  | .number _ _ | .string _ _ | .boolean _ _ | .identifier _ => rfl
  | .array offset elements =>
    exact congrArg (Expression.array offset) (Expression.mapTypesAll_eq_revised change elements)
  | .member offset object index =>
    exact congrArg₂ (Expression.member offset) (Expression.mapTypes_eq_revised change object)
      (Expression.mapTypes_eq_revised change index)
  | .binary offset left operator right =>
    exact congrArg₂ (Expression.binary offset · operator ·)
      (Expression.mapTypes_eq_revised change left) (Expression.mapTypes_eq_revised change right)
  | .conditional offset test consequent alternate =>
    simp only [Expression.revised, Expression.mapTypes, Expression.mapTypes_eq_revised change test,
      Expression.mapTypes_eq_revised change consequent,
      Expression.mapTypes_eq_revised change alternate]
  | .arrow offset params result { offset := opening, statements } =>
    have kept : params = params.map (·.revised (.types change)) := by
      rw [List.map_congr_left fun param _ => Parameter.revised_types change param, List.map_id']
    exact congrArg₂ (fun params statements =>
        Expression.arrow offset params result ⟨opening, statements⟩)
      kept (Statement.mapTypesAll_eq_revised change statements)
  | .call offset callee arguments =>
    exact congrArg₂ (Expression.call offset) (Expression.mapTypes_eq_revised change callee)
      (Expression.mapTypesAll_eq_revised change arguments)

/-- Changing the types in several expressions is a revision. -/
theorem Expression.mapTypesAll_eq_revised (change : Ty → Ty) (expressions : List Expression) :
    Expression.mapTypesAll change expressions =
      Expression.revisedAll (.types change) expressions := by
  match expressions with
  | [] => rfl
  | expression :: rest =>
    exact congrArg₂ List.cons (Expression.mapTypes_eq_revised change expression)
      (Expression.mapTypesAll_eq_revised change rest)

/-- Changing the types in a statement is a revision. -/
theorem Statement.mapTypes_eq_revised (change : Ty → Ty) (statement : Statement) :
    statement.mapTypes change = statement.revised (.types change) := by
  match statement with
  | .constant offset id ascription initial inferred =>
    exact congrArg (Statement.constant offset id ascription · (inferred.map change))
      (Expression.mapTypes_eq_revised change initial)
  | .returning _ none _ => rfl
  | .returning offset (some argument) inferred =>
    exact congrArg (fun argument =>
        Statement.returning offset (some argument) (inferred.map change))
      (Expression.mapTypes_eq_revised change argument)

/-- Changing the types in several statements is a revision. -/
theorem Statement.mapTypesAll_eq_revised (change : Ty → Ty) (statements : List Statement) :
    Statement.mapTypesAll change statements = Statement.revisedAll (.types change) statements := by
  match statements with
  | [] => rfl
  | statement :: rest =>
    exact congrArg₂ List.cons (Statement.mapTypes_eq_revised change statement)
      (Statement.mapTypesAll_eq_revised change rest)

end

end ArrowScript
