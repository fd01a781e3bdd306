import ArrowScript.Parser
import ArrowScript.Tree
import ArrowScript.Ty.Store

/-!
# Relocation

Tokens, trees and diagnostics tell by offsets where in the source they come from. To
relocate them is to change all these offsets, and nothing else, by one function. What has
no offsets stays as it is.

The parts of a tree are relocated one by one, and what they say of themselves besides their
offsets is the same as before.
-/

namespace ArrowScript

/-- Data that carry offsets. -/
class Located (α : Type) where
  /-- The data with every offset changed. -/
  relocate : (Int → Int) → α → α

export Located (relocate)

/-! ## Data without offsets -/

instance : Located Unit := ⟨fun _ => id⟩
instance : Located Bool := ⟨fun _ => id⟩
instance : Located Nat := ⟨fun _ => id⟩
instance : Located Problem := ⟨fun _ => id⟩
instance : Located Ty := ⟨fun _ => id⟩
instance : Located Store := ⟨fun _ => id⟩

/-! ## Data of several parts -/

section Parts

variable {α β : Type} [Located α] [Located β]

instance : Located (Option α) := ⟨fun move => Option.map (relocate move)⟩
instance : Located (List α) := ⟨fun move => List.map (relocate move)⟩
instance : Located (α × β) := ⟨fun move pair => (relocate move pair.1, relocate move pair.2)⟩
instance : Located (Except α β) := ⟨fun move outcome =>
  match outcome with
  | .ok result => .ok (relocate move result)
  | .error failure => .error (relocate move failure)⟩

variable (move : Int → Int)

@[simp] theorem relocate_cons (first : α) (rest : List α) :
    relocate move (first :: rest) = relocate move first :: relocate move rest := rfl

@[simp] theorem relocate_append (first second : List α) :
    relocate move (first ++ second) = relocate move first ++ relocate move second :=
  List.map_append

end Parts

/-! ## Tokens, diagnostics and trees -/

instance : Located Token where
  relocate move token := { token with offset := move token.offset }

instance : Located Diagnostic where
  relocate move diagnostic := { diagnostic with offset := move diagnostic.offset }

instance : Located Link where
  relocate move link := { link with offset := move link.offset }

instance : Located Identifier where
  relocate move identifier :=
    { identifier with
      offset := move identifier.offset
      declaration := relocate move identifier.declaration }

mutual

/-- An ascription with every offset changed. -/
def Ascription.relocated (move : Int → Int) : Ascription → Ascription
  | .named offset name => .named (move offset) name
  | .array offset element => .array (move offset) (element.relocated move)
  | .function offset params result =>
    .function (move offset) (Parameter.relocatedAll move params) (result.relocated move)

/-- A parameter with every offset changed. -/
def Parameter.relocated (move : Int → Int) : Parameter → Parameter
  | { offset, name, ascription := none, declaration } =>
    { offset := move offset, name, ascription := none, declaration := relocate move declaration }
  | { offset, name, ascription := some ascription, declaration } =>
    { offset := move offset, name, ascription := some (ascription.relocated move),
      declaration := relocate move declaration }

/-- Several parameters with every offset changed. -/
def Parameter.relocatedAll (move : Int → Int) : List Parameter → List Parameter
  | [] => []
  | param :: rest => param.relocated move :: Parameter.relocatedAll move rest

end

instance : Located Ascription := ⟨Ascription.relocated⟩
instance : Located Parameter := ⟨Parameter.relocated⟩

mutual

/-- An expression with every offset changed. -/
def Expression.relocated (move : Int → Int) : Expression → Expression
  | .number offset value => .number (move offset) value
  | .string offset value => .string (move offset) value
  | .boolean offset value => .boolean (move offset) value
  | .identifier identifier => .identifier (relocate move identifier)
  | .array offset elements => .array (move offset) (Expression.relocatedAll move elements)
  | .member offset object index =>
    .member (move offset) (object.relocated move) (index.relocated move)
  | .binary offset left operator right =>
    .binary (move offset) (left.relocated move) operator (right.relocated move)
  | .conditional offset test consequent alternate =>
    .conditional (move offset) (test.relocated move) (consequent.relocated move)
      (alternate.relocated move)
  | .arrow offset params result { offset := opening, statements } =>
    .arrow (move offset) (relocate move params) (relocate move result)
      { offset := move opening, statements := Statement.relocatedAll move statements }
  | .call offset callee arguments =>
    .call (move offset) (callee.relocated move) (Expression.relocatedAll move arguments)

/-- Several expressions with every offset changed. -/
def Expression.relocatedAll (move : Int → Int) : List Expression → List Expression
  | [] => []
  | expression :: rest => expression.relocated move :: Expression.relocatedAll move rest

/-- A statement with every offset changed. -/
def Statement.relocated (move : Int → Int) : Statement → Statement
  | .constant offset id ascription initial inferred =>
    .constant (move offset) (relocate move id) (relocate move ascription)
      (initial.relocated move) inferred
  | .returning offset none inferred => .returning (move offset) none inferred
  | .returning offset (some argument) inferred =>
    .returning (move offset) (some (argument.relocated move)) inferred

/-- Several statements with every offset changed. -/
def Statement.relocatedAll (move : Int → Int) : List Statement → List Statement
  | [] => []
  | statement :: rest => statement.relocated move :: Statement.relocatedAll move rest

end

instance : Located Expression := ⟨Expression.relocated⟩
instance : Located Statement := ⟨Statement.relocated⟩

instance : Located Block where
  relocate move block :=
    { offset := move block.offset, statements := relocate move block.statements }

/-- The root of a tree does not stand at a token, so its own offset is kept. -/
instance : Located Program where
  relocate move program := { program with body := relocate move program.body }

variable (move : Int → Int)

/-- Several parameters are relocated one by one. -/
theorem Parameter.relocatedAll_eq (params : List Parameter) :
    Parameter.relocatedAll move params = relocate move params := by
  induction params with
  | nil => rfl
  | cons param rest inductionHypothesis =>
    rw [Parameter.relocatedAll, inductionHypothesis]
    rfl

/-- Several expressions are relocated one by one. -/
theorem Expression.relocatedAll_eq (expressions : List Expression) :
    Expression.relocatedAll move expressions = relocate move expressions := by
  induction expressions with
  | nil => rfl
  | cons expression rest inductionHypothesis =>
    rw [Expression.relocatedAll, inductionHypothesis]
    rfl

/-- Several statements are relocated one by one. -/
theorem Statement.relocatedAll_eq (statements : List Statement) :
    Statement.relocatedAll move statements = relocate move statements := by
  induction statements with
  | nil => rfl
  | cons statement rest inductionHypothesis =>
    rw [Statement.relocatedAll, inductionHypothesis]
    rfl

/-- A relocated token is of the same kind. -/
@[simp] theorem Token.kind_relocate (token : Token) : (relocate move token).kind = token.kind :=
  rfl

/-- A relocated token has the same value. -/
@[simp] theorem Token.value_relocate (token : Token) : (relocate move token).value = token.value :=
  rfl

/-- The offset of a relocated ascription. -/
@[simp] theorem Ascription.offset_relocate (ascription : Ascription) :
    (relocate move ascription).offset = move ascription.offset := by
  cases ascription <;> rfl

/-- The offset of a relocated expression. -/
@[simp] theorem Expression.offset_relocate (expression : Expression) :
    (relocate move expression).offset = move expression.offset := by
  match expression with
  | .number _ _ | .string _ _ | .boolean _ _ | .identifier _ | .array _ _ | .member _ _ _
  | .binary _ _ _ _ | .conditional _ _ _ _ | .arrow _ _ _ ⟨_, _⟩ | .call _ _ _ => rfl

/-- The offset of a relocated statement. -/
@[simp] theorem Statement.offset_relocate (statement : Statement) :
    (relocate move statement).offset = move statement.offset := by
  match statement with
  | .constant _ _ _ _ _ | .returning _ none _ | .returning _ (some _) _ => rfl

/-- A relocated return is a return. -/
@[simp] theorem Statement.isReturn_relocate (statement : Statement) :
    (relocate move statement).isReturn = statement.isReturn := by
  match statement with
  | .constant _ _ _ _ _ | .returning _ none _ | .returning _ (some _) _ => rfl

end ArrowScript
