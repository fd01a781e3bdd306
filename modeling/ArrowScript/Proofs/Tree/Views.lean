import Mathlib.Logic.Function.Basic
import ArrowScript.Tree.View

/-!
# What views tell of trees

The view of a node tells its kind, and with it the fields that it has. Everything that a node
records is in its view, so nodes with the same view are the same. What a tool finds out by looking
at views only is found out about the trees.
-/

namespace ArrowScript

/-- Identifiers with the same view are the same. -/
theorem Identifier.view_eq_iff (one other : Identifier) :
    one.view = other.view ↔ one = other := by
  obtain ⟨offset, name, declaration⟩ := one
  obtain ⟨offset', name', declaration'⟩ := other
  simp [Identifier.view, and_comm]

mutual

/-- Ascriptions with the same view are the same. -/
theorem Ascription.view_eq_iff (one other : Ascription) : one.view = other.view ↔ one = other := by
  match one with
  | .named offset name => cases other <;> simp [Ascription.view]
  | .array offset element =>
    cases other with
    | array _ other => simp [Ascription.view, element.view_eq_iff other]
    | _ => simp [Ascription.view]
  | .function offset params result =>
    cases other with
    | function _ others other =>
      simp [Ascription.view, Parameter.views_eq_iff params others, result.view_eq_iff other]
    | _ => simp [Ascription.view]

/-- Parameters with the same view are the same. -/
theorem Parameter.view_eq_iff (one other : Parameter) : one.view = other.view ↔ one = other := by
  match one with
  | { offset, name, ascription := none, declaration } =>
    obtain ⟨_, _, _ | another, _⟩ := other
    · simp [Parameter.view, and_comm]
    · cases another <;> simp [Parameter.view, Ascription.view]
  | { offset, name, ascription := some ascription, declaration } =>
    obtain ⟨_, _, _ | another, _⟩ := other
    · cases ascription <;> simp [Parameter.view, Ascription.view]
    · simp [Parameter.view, ascription.view_eq_iff another, and_comm, and_assoc]

/-- So are several parameters. -/
theorem Parameter.views_eq_iff (params others : List Parameter) :
    Parameter.views params = Parameter.views others ↔ params = others := by
  match params, others with
  | [], [] => simp
  | [], _ :: _ | _ :: _, [] => simp [Parameter.views]
  | param :: rest, other :: further =>
    simp [Parameter.views, param.view_eq_iff other, Parameter.views_eq_iff rest further]

end

/-- Ascriptions that may be missing have the same view only if they are the same. -/
theorem Ascription.viewOf_eq_iff (one other : Option Ascription) :
    Ascription.viewOf one = Ascription.viewOf other ↔ one = other := by
  match one, other with
  | none, none => simp
  | none, some other => cases other <;> simp [Ascription.viewOf, Ascription.view]
  | some one, none => cases one <;> simp [Ascription.viewOf, Ascription.view]
  | some one, some other => simp [Ascription.viewOf, one.view_eq_iff other]

mutual

/-- Expressions with the same view are the same. -/
theorem Expression.view_eq_iff (one other : Expression) : one.view = other.view ↔ one = other := by
  match one with
  | .number offset value => cases other <;> simp [Expression.view, Identifier.view]
  | .string offset value => cases other <;> simp [Expression.view, Identifier.view]
  | .boolean offset value => cases other <;> simp [Expression.view, Identifier.view]
  | .identifier use =>
    cases other with
    | identifier other => simp [Expression.view, use.view_eq_iff other]
    | _ => simp [Expression.view, Identifier.view]
  | .array offset elements =>
    cases other with
    | array _ others => simp [Expression.view, Expression.views_eq_iff elements others]
    | _ => simp [Expression.view, Identifier.view]
  | .member offset object index =>
    cases other with
    | member _ other further =>
      simp [Expression.view, object.view_eq_iff other, index.view_eq_iff further]
    | _ => simp [Expression.view, Identifier.view]
  | .binary offset left operator right =>
    cases other with
    | binary _ other _ further =>
      simp [Expression.view, left.view_eq_iff other, right.view_eq_iff further]
    | _ => simp [Expression.view, Identifier.view]
  | .conditional offset test consequent alternate =>
    cases other with
    | conditional _ other further last =>
      simp [Expression.view, test.view_eq_iff other, consequent.view_eq_iff further,
        alternate.view_eq_iff last]
    | _ => simp [Expression.view, Identifier.view]
  | .arrow offset params result body =>
    cases other with
    | arrow _ others other further =>
      simp [Expression.view, Parameter.views_eq_iff params others,
        Ascription.viewOf_eq_iff result other, body.view_eq_iff further]
    | _ => simp [Expression.view, Identifier.view]
  | .call offset callee arguments =>
    cases other with
    | call _ other others =>
      simp [Expression.view, callee.view_eq_iff other, Expression.views_eq_iff arguments others]
    | _ => simp [Expression.view, Identifier.view]

/-- Statements with the same view are the same. -/
theorem Statement.view_eq_iff (one other : Statement) : one.view = other.view ↔ one = other := by
  match one with
  | .constant offset id ascription initial inferred =>
    obtain ⟨_, further, another, last, _⟩ | ⟨_, _ | _, _⟩ := other
    · simp [Statement.view, id.view_eq_iff further, Ascription.viewOf_eq_iff ascription another,
        initial.view_eq_iff last, and_comm, and_assoc, and_left_comm]
    all_goals simp [Statement.view]
  | .returning offset none inferred =>
    obtain _ | ⟨_, _ | argument, _⟩ := other
    · simp [Statement.view]
    · simp [Statement.view]
    · cases argument <;> simp [Statement.view, Expression.view, Identifier.view]
  | .returning offset (some argument) inferred =>
    obtain _ | ⟨_, _ | other, _⟩ := other
    · simp [Statement.view]
    · cases argument <;> simp [Statement.view, Expression.view, Identifier.view]
    · simp [Statement.view, argument.view_eq_iff other, and_comm]

/-- Blocks with the same view are the same. -/
theorem Block.view_eq_iff (one other : Block) : one.view = other.view ↔ one = other := by
  match one with
  | { offset, statements } =>
    obtain ⟨_, others⟩ := other
    simp [Block.view, Statement.views_eq_iff statements others]

/-- Several expressions have the same views only if they are the same. -/
theorem Expression.views_eq_iff (expressions others : List Expression) :
    Expression.views expressions = Expression.views others ↔ expressions = others := by
  match expressions, others with
  | [], [] => simp
  | [], _ :: _ | _ :: _, [] => simp [Expression.views]
  | expression :: rest, other :: further =>
    simp [Expression.views, expression.view_eq_iff other, Expression.views_eq_iff rest further]

/-- Several statements have the same views only if they are the same. -/
theorem Statement.views_eq_iff (statements others : List Statement) :
    Statement.views statements = Statement.views others ↔ statements = others := by
  match statements, others with
  | [], [] => simp
  | [], _ :: _ | _ :: _, [] => simp [Statement.views]
  | statement :: rest, other :: further =>
    simp [Statement.views, statement.view_eq_iff other, Statement.views_eq_iff rest further]

end

/-- Programs with the same view are the same. -/
theorem Program.view_eq_iff (one other : Program) : one.view = other.view ↔ one = other := by
  obtain ⟨_, body⟩ := one
  obtain ⟨_, others⟩ := other
  simp [Program.view, Statement.views_eq_iff body others]

/-! ## Nodes -/

/-- The sorts of nodes, by what a node is put together from. -/
inductive NodeSort where
  | ascription
  | parameter
  | expression
  | statement
  | block
  | program
  | plain

/-- The sort of the nodes of a kind. -/
def NodeKind.sort : NodeKind → NodeSort
  | namedAscription | arrayAscription | functionAscription => .ascription
  | numberLiteral | stringLiteral | booleanLiteral | identifier | arrayLiteral
  | member | binary | conditional | arrow | call => .expression
  | parameter => .parameter
  | constant | returning => .statement
  | block => .block
  | program => .program
  | plain => .plain

/-- The sort of a node. -/
def Node.sort : Node → NodeSort
  | ascription _ => .ascription
  | parameter _ => .parameter
  | expression _ => .expression
  | statement _ => .statement
  | block _ => .block
  | program _ => .program
  | plain _ => .plain

/-- The view of a node tells its sort. -/
theorem Node.sort_view (node : Node) : node.view.kind?.map NodeKind.sort = some node.sort := by
  match node with
  | .ascription root => cases root <;> rfl
  | .parameter ⟨_, _, none, _⟩ | .parameter ⟨_, _, some _, _⟩ => rfl
  | .expression root => cases root <;> rfl
  | .statement (.constant ..) | .statement (.returning _ none _)
  | .statement (.returning _ (some _) _) => rfl
  | .block ⟨_, _⟩ | .program _ | .plain _ => rfl

/-- Nodes with the same view are the same. -/
theorem Node.view_injective : Function.Injective Node.view := by
  intro one other same
  have sorts : one.sort = other.sort :=
    Option.some.inj (by rw [← one.sort_view, same, other.sort_view])
  cases one with
  | ascription one =>
    cases other with
    | ascription other => exact congrArg ascription ((one.view_eq_iff other).mp same)
    | _ => exact nomatch sorts
  | parameter one =>
    cases other with
    | parameter other => exact congrArg parameter ((one.view_eq_iff other).mp same)
    | _ => exact nomatch sorts
  | expression one =>
    cases other with
    | expression other => exact congrArg expression ((one.view_eq_iff other).mp same)
    | _ => exact nomatch sorts
  | statement one =>
    cases other with
    | statement other => exact congrArg statement ((one.view_eq_iff other).mp same)
    | _ => exact nomatch sorts
  | block one =>
    cases other with
    | block other => exact congrArg block ((one.view_eq_iff other).mp same)
    | _ => exact nomatch sorts
  | program one =>
    cases other with
    | program other => exact congrArg program ((one.view_eq_iff other).mp same)
    | _ => exact nomatch sorts
  | plain offset =>
    cases other with
    | plain => simpa [view] using same
    | _ => exact nomatch sorts

end ArrowScript
