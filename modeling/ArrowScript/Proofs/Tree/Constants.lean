import Mathlib.Data.List.Perm.Subperm
import ArrowScript.Proofs.Scope.Events
import ArrowScript.Proofs.Tree.Order
import ArrowScript.Proofs.Tree.Revisions

/-!
# Constants and uses

The names of the constants in a tree and the names that are used in it are nodes without
children, and they are met in the order of the leaves. So in a tree that follows the tokens of
a text the offsets of the constants increase, through all functions.
-/

namespace ArrowScript

/-- The identifier that a statement declares, if it is a constant. -/
def Statement.declared? : Statement → Option Identifier
  | .constant _ id _ _ _ => some id
  | .returning _ _ _ => none

/-- The identifiers that listed statements declare. -/
def declaredIn (entries : List (Nat × Statement)) : List Identifier :=
  entries.filterMap (·.2.declared?)

/-- The identifiers of the constants of a program, at all depths. -/
def Program.constants (program : Program) : List Identifier := declaredIn program.statements

@[simp]
theorem declaredIn_append (entries others : List (Nat × Statement)) :
    declaredIn (entries ++ others) = declaredIn entries ++ declaredIn others :=
  List.filterMap_append

@[simp]
theorem declaredIn_cons (entry : Nat × Statement) (entries : List (Nat × Statement)) :
    declaredIn (entry :: entries) = entry.2.declared?.toList ++ declaredIn entries := by
  rw [declaredIn, List.filterMap_cons]
  cases entry.2.declared? <;> rfl

/-! ## Leaves of trees of each form -/

namespace View

/-- The leaves of the children of a node. -/
def leavesBelow (view : View) : List View := view.children.flatMap leaves

/-- The leaves of its children are leaves of a node. -/
theorem leavesBelow_sublist (view : View) : view.leavesBelow.Sublist view.leaves := by
  rw [leaves_eq]
  split
  next none =>
    rw [leavesBelow, List.isEmpty_iff.mp none]
    exact List.nil_sublist _
  next => exact List.Sublist.refl _

end View

/-- An identifier is a leaf. -/
@[simp]
theorem Identifier.leaves_view (id : Identifier) : id.view.leaves = [id.view] := by
  rw [View.leaves_eq]
  rfl

section Forms

variable (offset : Int)

@[simp]
theorem Expression.leavesBelow_array (elements : List Expression) :
    (Expression.array offset elements).view.leavesBelow =
      elements.flatMap (·.view.leaves) := by
  rw [View.leavesBelow, children_array, List.flatMap_map]

@[simp]
theorem Expression.leavesBelow_member (object index : Expression) :
    (Expression.member offset object index).view.leavesBelow =
      object.view.leaves ++ index.view.leaves := by
  simp [View.leavesBelow, children_member]

@[simp]
theorem Expression.leavesBelow_binary (left : Expression) (operator : String)
    (right : Expression) :
    (Expression.binary offset left operator right).view.leavesBelow =
      left.view.leaves ++ right.view.leaves := by
  simp [View.leavesBelow, children_binary]

@[simp]
theorem Expression.leavesBelow_conditional (test consequent alternate : Expression) :
    (Expression.conditional offset test consequent alternate).view.leavesBelow =
      test.view.leaves ++ (consequent.view.leaves ++ alternate.view.leaves) := by
  simp [View.leavesBelow, children_conditional]

@[simp]
theorem Expression.leavesBelow_arrow (params : List Parameter) (result : Option Ascription)
    (body : Block) :
    (Expression.arrow offset params result body).view.leavesBelow =
      (params.flatMap (·.view.leaves) ++ result.toList.flatMap (·.view.leaves)) ++
        body.view.leaves := by
  simp [View.leavesBelow, children_arrow, List.flatMap_map]

@[simp]
theorem Expression.leavesBelow_call (callee : Expression) (arguments : List Expression) :
    (Expression.call offset callee arguments).view.leavesBelow =
      callee.view.leaves ++ arguments.flatMap (·.view.leaves) := by
  simp [View.leavesBelow, children_call, List.flatMap_map]

@[simp]
theorem Statement.leavesBelow_constant (id : Identifier) (ascription : Option Ascription)
    (initial : Expression) (inferred : Option Ty) :
    (Statement.constant offset id ascription initial inferred).view.leavesBelow =
      [id.view] ++ (ascription.toList.flatMap (·.view.leaves) ++ initial.view.leaves) := by
  simp [View.leavesBelow, children_constant, List.flatMap_map]

@[simp]
theorem Statement.leavesBelow_returning (argument : Expression) (inferred : Option Ty) :
    (Statement.returning offset (some argument) inferred).view.leavesBelow =
      argument.view.leaves := by
  simp [View.leavesBelow, children_returning]

@[simp]
theorem Block.leavesBelow_view (statements : List Statement) :
    (Block.mk offset statements).view.leavesBelow = statements.flatMap (·.view.leaves) := by
  rw [View.leavesBelow, children_view, List.flatMap_map]

@[simp]
theorem Program.leavesBelow_view (program : Program) :
    program.view.leavesBelow = program.body.flatMap (·.view.leaves) := by
  rw [View.leavesBelow, children_view, List.flatMap_map]

/-- The leaves of the statements between braces are leaves of a function. -/
theorem Expression.leaves_body (opening : Int) (params : List Parameter)
    (result : Option Ascription) (statements : List Statement) :
    (statements.flatMap (·.view.leaves)).Sublist
      (Expression.arrow offset params result ⟨opening, statements⟩).view.leavesBelow := by
  rw [leavesBelow_arrow, ← Block.leavesBelow_view opening]
  exact (View.leavesBelow_sublist _).trans (List.sublist_append_right _ _)

end Forms

/-! ## Constants among the leaves -/

mutual

/-- The constants in an expression are some of its leaves. -/
theorem Expression.declared_leaves (depth : Nat) (expression : Expression) :
    ((declaredIn (expression.statements depth)).map Identifier.view).Sublist
      expression.view.leaves := by
  refine List.Sublist.trans ?_ expression.view.leavesBelow_sublist
  match expression with
  | .number _ _ | .string _ _ | .boolean _ _ | .identifier _ => exact List.nil_sublist _
  | .array _ elements =>
    simpa [Expression.statements] using Expression.declared_leavesOf depth elements
  | .member _ object index =>
    simpa [Expression.statements] using
      (Expression.declared_leaves depth object).append (Expression.declared_leaves depth index)
  | .binary _ left _ right =>
    simpa [Expression.statements] using
      (Expression.declared_leaves depth left).append (Expression.declared_leaves depth right)
  | .conditional _ test consequent alternate =>
    simpa [Expression.statements] using
      (Expression.declared_leaves depth test).append
        ((Expression.declared_leaves depth consequent).append
          (Expression.declared_leaves depth alternate))
  | .arrow offset params result ⟨opening, statements⟩ =>
    exact (Statement.declared_leavesOf (depth + 1) statements).trans
      (Expression.leaves_body offset opening params result statements)
  | .call _ callee arguments =>
    simpa [Expression.statements] using
      (Expression.declared_leaves depth callee).append
        (Expression.declared_leavesOf depth arguments)

/-- The constants in several expressions are some of their leaves. -/
theorem Expression.declared_leavesOf (depth : Nat) (expressions : List Expression) :
    ((declaredIn (Expression.statementsOf depth expressions)).map Identifier.view).Sublist
      (expressions.flatMap (·.view.leaves)) := by
  match expressions with
  | [] => exact List.nil_sublist _
  | expression :: rest =>
    simpa [Expression.statementsOf] using
      (Expression.declared_leaves depth expression).append (Expression.declared_leavesOf depth rest)

/-- A constant and those inside a statement are some of its leaves. -/
theorem Statement.declared_leaves (depth : Nat) (statement : Statement) :
    ((statement.declared?.toList ++ declaredIn (statement.inside depth)).map
      Identifier.view).Sublist statement.view.leaves := by
  refine List.Sublist.trans ?_ statement.view.leavesBelow_sublist
  match statement with
  | .constant _ id ascription initial _ =>
    have value := Expression.declared_leaves depth initial
    simpa [Statement.declared?, Statement.inside] using
      value.trans (List.sublist_append_right _ _)
  | .returning _ none _ => exact List.nil_sublist _
  | .returning _ (some argument) _ =>
    simpa [Statement.declared?, Statement.inside] using Expression.declared_leaves depth argument

/-- The constants in several statements are some of their leaves. -/
theorem Statement.declared_leavesOf (depth : Nat) (statements : List Statement) :
    ((declaredIn (Statement.listed depth statements)).map Identifier.view).Sublist
      (statements.flatMap (·.view.leaves)) := by
  match statements with
  | [] => exact List.nil_sublist _
  | statement :: rest =>
    simpa [Statement.listed] using
      (Statement.declared_leaves depth statement).append (Statement.declared_leavesOf depth rest)

end

/-- The constants of a program are some of its leaves. -/
theorem Program.constants_leaves (program : Program) :
    (program.constants.map Identifier.view).Sublist program.view.leaves := by
  refine List.Sublist.trans ?_ program.view.leavesBelow_sublist
  rw [Program.leavesBelow_view]
  exact Statement.declared_leavesOf 0 program.body

/-- In a tree that follows the tokens of a text, the constants stand one behind the other. -/
theorem Program.constants_increasing {program : Program} {tokens : List Token} {length : Nat}
    (follows : program.view.Follows tokens length) :
    (program.constants.map (·.offset)).Pairwise (· < ·) := by
  have part := program.constants_leaves.map View.offset
  rw [List.map_map] at part
  exact follows.leaves.1.sublist part

/-! ## Names among the leaves -/

/-- Views of two kinds in two parts are views of these kinds in the whole. -/
theorem subperm_interleaved {uses constants leaves others more rest : List View}
    (first : (uses ++ constants).Subperm leaves) (second : (others ++ more).Subperm rest) :
    ((uses ++ others) ++ (constants ++ more)).Subperm (leaves ++ rest) := by
  have order : ((uses ++ others) ++ (constants ++ more)).Perm
      ((uses ++ constants) ++ (others ++ more)) := by
    simp only [List.append_assoc]
    apply List.Perm.append_left
    simp only [← List.append_assoc]
    exact List.perm_append_comm.append_right more
  exact order.subperm.trans (first.append second)

/-- What is among the leaves of the children of a node is among its leaves. -/
theorem View.subperm_leaves {names : List View} {view : View}
    (part : names.Subperm view.leavesBelow) : names.Subperm view.leaves :=
  part.trans view.leavesBelow_sublist.subperm

mutual

/-- The names that are used in an expression and its constants are different leaves. -/
theorem Expression.names_leaves (depth : Nat) (expression : Expression) :
    (expression.uses.map Identifier.view ++
      (declaredIn (expression.statements depth)).map Identifier.view).Subperm
        expression.view.leaves := by
  match expression with
  | .number _ _ | .string _ _ | .boolean _ _ => exact List.nil_subperm
  | .identifier use =>
    rw [Expression.view, Identifier.leaves_view]
    exact List.Subperm.refl _
  | .array _ elements =>
    apply View.subperm_leaves
    simpa [Expression.uses, Expression.statements] using Expression.names_leavesOf depth elements
  | .member _ object index =>
    apply View.subperm_leaves
    simpa [Expression.uses, Expression.statements] using
      subperm_interleaved (Expression.names_leaves depth object)
        (Expression.names_leaves depth index)
  | .binary _ left _ right =>
    apply View.subperm_leaves
    simpa [Expression.uses, Expression.statements] using
      subperm_interleaved (Expression.names_leaves depth left)
        (Expression.names_leaves depth right)
  | .conditional _ test consequent alternate =>
    apply View.subperm_leaves
    simpa [Expression.uses, Expression.statements] using
      subperm_interleaved (Expression.names_leaves depth test)
        (subperm_interleaved (Expression.names_leaves depth consequent)
          (Expression.names_leaves depth alternate))
  | .arrow offset params result ⟨opening, statements⟩ =>
    apply View.subperm_leaves
    exact (Statement.names_leavesOf (depth + 1) statements).trans
      (Expression.leaves_body offset opening params result statements).subperm
  | .call _ callee arguments =>
    apply View.subperm_leaves
    simpa [Expression.uses, Expression.statements] using
      subperm_interleaved (Expression.names_leaves depth callee)
        (Expression.names_leavesOf depth arguments)

/-- The names that are used in several expressions and their constants are different leaves. -/
theorem Expression.names_leavesOf (depth : Nat) (expressions : List Expression) :
    ((Expression.usesOf expressions).map Identifier.view ++
      (declaredIn (Expression.statementsOf depth expressions)).map Identifier.view).Subperm
        (expressions.flatMap (·.view.leaves)) := by
  match expressions with
  | [] => exact List.nil_subperm
  | expression :: rest =>
    simpa [Expression.usesOf, Expression.statementsOf] using
      subperm_interleaved (Expression.names_leaves depth expression)
        (Expression.names_leavesOf depth rest)

/-- The names that are used in a statement, its own name and its constants are different
leaves. -/
theorem Statement.names_leaves (depth : Nat) (statement : Statement) :
    (statement.uses.map Identifier.view ++
      (statement.declared?.toList ++ declaredIn (statement.inside depth)).map
        Identifier.view).Subperm statement.view.leaves := by
  match statement with
  | .constant _ id ascription initial _ =>
    apply View.subperm_leaves
    have own : ([] ++ [id.view]).Subperm [id.view] := List.Subperm.refl _
    have value := (Expression.names_leaves depth initial).trans
      (List.sublist_append_right (ascription.toList.flatMap (·.view.leaves)) _).subperm
    simpa [Statement.uses, Statement.declared?, Statement.inside] using
      subperm_interleaved own value
  | .returning _ none _ => exact List.nil_subperm
  | .returning _ (some argument) _ =>
    apply View.subperm_leaves
    simpa [Statement.uses, Statement.declared?, Statement.inside] using
      Expression.names_leaves depth argument

/-- The names that are used in several statements and their constants are different leaves. -/
theorem Statement.names_leavesOf (depth : Nat) (statements : List Statement) :
    ((Statement.usesOf statements).map Identifier.view ++
      (declaredIn (Statement.listed depth statements)).map Identifier.view).Subperm
        (statements.flatMap (·.view.leaves)) := by
  match statements with
  | [] => exact List.nil_subperm
  | statement :: rest =>
    simpa [Statement.usesOf, Statement.listed] using
      subperm_interleaved (Statement.names_leaves depth statement)
        (Statement.names_leavesOf depth rest)

end

/-- The names that are used in a program and its constants are different leaves. -/
theorem Program.names_leaves (program : Program) :
    (program.uses.map Identifier.view ++ program.constants.map Identifier.view).Subperm
      program.view.leaves := by
  apply View.subperm_leaves
  simpa [Program.uses, Program.constants, Program.statements] using
    Statement.names_leavesOf 0 program.body

/-! ## Revised trees -/

/-- A revised statement declares its identifier, revised. -/
@[simp]
theorem Statement.declared?_revised (revision : Revision) (statement : Statement) :
    (statement.revised revision).declared? = statement.declared?.map (·.revised revision) := by
  match statement with
  | .constant _ _ _ _ _ | .returning _ none _ | .returning _ (some _) _ => rfl

/-- The constants of a revised program are its constants, revised. -/
theorem Program.constants_revised (revision : Revision) (program : Program) :
    (program.revised revision).constants = program.constants.map (·.revised revision) := by
  simp [constants, statements, revised, Statement.listed_revised, declaredIn, List.filterMap_map,
    List.map_filterMap, Revision.entry, Function.comp_def]

mutual

/-- The uses in a revised expression are its uses, revised. -/
theorem Expression.uses_revised (revision : Revision) (expression : Expression) :
    (expression.revised revision).uses = expression.uses.map (·.revised revision) := by
  match expression with
  | .number _ _ | .string _ _ | .boolean _ _ | .identifier _ => rfl
  | .array _ elements => exact Expression.usesOf_revised revision elements
  | .member _ object index =>
    simp only [Expression.revised, Expression.uses, List.map_append,
      Expression.uses_revised revision object, Expression.uses_revised revision index]
  | .binary _ left _ right =>
    simp only [Expression.revised, Expression.uses, List.map_append,
      Expression.uses_revised revision left, Expression.uses_revised revision right]
  | .conditional _ test consequent alternate =>
    simp only [Expression.revised, Expression.uses, List.map_append,
      Expression.uses_revised revision test, Expression.uses_revised revision consequent,
      Expression.uses_revised revision alternate]
  | .arrow _ _ _ { statements, .. } => exact Statement.usesOf_revised revision statements
  | .call _ callee arguments =>
    simp only [Expression.revised, Expression.uses, List.map_append,
      Expression.uses_revised revision callee, Expression.usesOf_revised revision arguments]

/-- The uses in several revised expressions are their uses, revised. -/
theorem Expression.usesOf_revised (revision : Revision) (expressions : List Expression) :
    Expression.usesOf (Expression.revisedAll revision expressions) =
      (Expression.usesOf expressions).map (·.revised revision) := by
  match expressions with
  | [] => rfl
  | expression :: rest =>
    simp only [Expression.revisedAll, Expression.usesOf, List.map_append,
      Expression.uses_revised revision expression, Expression.usesOf_revised revision rest]

/-- The uses in a revised statement are its uses, revised. -/
theorem Statement.uses_revised (revision : Revision) (statement : Statement) :
    (statement.revised revision).uses = statement.uses.map (·.revised revision) := by
  match statement with
  | .constant _ _ _ initial _ => exact Expression.uses_revised revision initial
  | .returning _ none _ => rfl
  | .returning _ (some argument) _ => exact Expression.uses_revised revision argument

/-- The uses in several revised statements are their uses, revised. -/
theorem Statement.usesOf_revised (revision : Revision) (statements : List Statement) :
    Statement.usesOf (Statement.revisedAll revision statements) =
      (Statement.usesOf statements).map (·.revised revision) := by
  match statements with
  | [] => rfl
  | statement :: rest =>
    simp only [Statement.revisedAll, Statement.usesOf, List.map_append,
      Statement.uses_revised revision statement, Statement.usesOf_revised revision rest]

end

/-- The uses in a revised program are its uses, revised. -/
theorem Program.uses_revised (revision : Revision) (program : Program) :
    (program.revised revision).uses = program.uses.map (·.revised revision) :=
  Statement.usesOf_revised revision program.body

end ArrowScript
