import ArrowScript.Validation

/-!
# The codes of each stage

Every stage reports problems of its own: the parser those of syntax, the validation returns
that are not last, the name resolution those of names, and the inference those of types.
A character at which no token begins is reported by the lexer, and by no later stage.

The inference has a problem for operators other than `+`. It is not among those of types
here, since the parser builds no such operator: its trees are additive.
-/

namespace ArrowScript

namespace ErrorCode

/-- The problems that the parser reports. -/
def syntactic : List ErrorCode := [unexpectedToken, anyTypeRejected, expressionBodyRejected]

/-- The problems that the validation reports. -/
def structural : List ErrorCode := [returnNotLast]

/-- The problems that the name resolution reports. -/
def naming : List ErrorCode := [duplicateDeclaration, duplicateParameter, undeclaredReference]

/-- The problems that the unification of two types reports. -/
def conflicts : List ErrorCode := [typeMismatch, infiniteType, arityMismatch]

/-- The problems that the inference reports on additive trees. -/
def typing : List ErrorCode :=
  [typeMismatch, operatorTypeMismatch, infiniteType, arityMismatch, notCallable]

end ErrorCode

/-- All diagnostics have one of the given codes. -/
def Coded (codes : List ErrorCode) (diagnostics : List Diagnostic) : Prop :=
  ∀ diagnostic ∈ diagnostics, diagnostic.code ∈ codes

namespace Coded

variable {codes more : List ErrorCode} {first second : List Diagnostic}

/-- No diagnostics. -/
theorem nil : Coded codes [] := nofun

/-- One diagnostic. -/
theorem one {diagnostic : Diagnostic} (among : diagnostic.code ∈ codes) :
    Coded codes [diagnostic] :=
  fun _ member => List.mem_singleton.mp member ▸ among

/-- Diagnostics behind others. -/
theorem append (coded : Coded codes first) (others : Coded codes second) :
    Coded codes (first ++ second) := fun diagnostic member =>
  (List.mem_append.mp member).elim (coded diagnostic) (others diagnostic)

/-- More codes may be given. -/
theorem mono (coded : Coded codes first) (among : codes ⊆ more) : Coded more first :=
  fun diagnostic member => among (coded diagnostic member)

end Coded

/-! ## Misplaced returns -/

/-- What is reported of a body are returns. -/
theorem earlyReturns_coded (body : List Statement) :
    Coded ErrorCode.structural (earlyReturns body) := by
  intro diagnostic member
  obtain ⟨statement, _, rfl⟩ := List.mem_map.mp member
  exact List.mem_singleton_self _

mutual

/-- What is reported of an expression are returns. -/
theorem Expression.validate_coded (expression : Expression) :
    Coded ErrorCode.structural expression.validate := by
  match expression with
  | .number _ _ | .string _ _ | .boolean _ _ | .identifier _ => exact .nil
  | .array _ elements => exact Expression.validateAll_coded elements
  | .member _ object index => exact object.validate_coded.append index.validate_coded
  | .binary _ left _ right => exact left.validate_coded.append right.validate_coded
  | .conditional _ test consequent alternate =>
    exact (test.validate_coded.append consequent.validate_coded).append alternate.validate_coded
  | .arrow _ _ _ { statements, .. } =>
    exact (earlyReturns_coded statements).append (Statement.validateAll_coded statements)
  | .call _ callee arguments =>
    exact callee.validate_coded.append (Expression.validateAll_coded arguments)

/-- What is reported of several expressions are returns. -/
theorem Expression.validateAll_coded (expressions : List Expression) :
    Coded ErrorCode.structural (Expression.validateAll expressions) := by
  match expressions with
  | [] => exact .nil
  | expression :: rest =>
    exact expression.validate_coded.append (Expression.validateAll_coded rest)

/-- What is reported of a statement are returns. -/
theorem Statement.validate_coded (statement : Statement) :
    Coded ErrorCode.structural statement.validate := by
  match statement with
  | .constant _ _ _ initial _ => exact initial.validate_coded
  | .returning _ none _ => exact .nil
  | .returning _ (some argument) _ => exact argument.validate_coded

/-- What is reported of several statements are returns. -/
theorem Statement.validateAll_coded (statements : List Statement) :
    Coded ErrorCode.structural (Statement.validateAll statements) := by
  match statements with
  | [] => exact .nil
  | statement :: rest => exact statement.validate_coded.append (Statement.validateAll_coded rest)

end

/-! ## Additive trees -/

mutual

/-- Every binary operator in an expression is `+`. -/
def Expression.Additive : Expression → Prop
  | .number _ _ | .string _ _ | .boolean _ _ | .identifier _ => True
  | .array _ elements => Expression.AdditiveAll elements
  | .member _ object index => object.Additive ∧ index.Additive
  | .binary _ left operator right => left.Additive ∧ operator = "+" ∧ right.Additive
  | .conditional _ test consequent alternate =>
    test.Additive ∧ consequent.Additive ∧ alternate.Additive
  | .arrow _ _ _ { statements, .. } => Statement.AdditiveAll statements
  | .call _ callee arguments => callee.Additive ∧ Expression.AdditiveAll arguments

/-- Every binary operator in several expressions is `+`. -/
def Expression.AdditiveAll : List Expression → Prop
  | [] => True
  | expression :: rest => expression.Additive ∧ Expression.AdditiveAll rest

/-- Every binary operator in a statement is `+`. -/
def Statement.Additive : Statement → Prop
  | .constant _ _ _ initial _ => initial.Additive
  | .returning _ none _ => True
  | .returning _ (some argument) _ => argument.Additive

/-- Every binary operator in several statements is `+`. -/
def Statement.AdditiveAll : List Statement → Prop
  | [] => True
  | statement :: rest => statement.Additive ∧ Statement.AdditiveAll rest

end

/-- Several expressions are additive if each of them is. -/
theorem Expression.additiveAll_of {expressions : List Expression}
    (additive : ∀ expression ∈ expressions, expression.Additive) :
    Expression.AdditiveAll expressions := by
  induction expressions with
  | nil => trivial
  | cons expression rest inductionHypothesis =>
    obtain ⟨first, others⟩ := List.forall_mem_cons.mp additive
    exact ⟨first, inductionHypothesis others⟩

/-- Statements before others. -/
theorem Statement.AdditiveAll.append {first second : List Statement}
    (additive : Statement.AdditiveAll first) (others : Statement.AdditiveAll second) :
    Statement.AdditiveAll (first ++ second) := by
  induction first with
  | nil => exact others
  | cons statement rest inductionHypothesis =>
    exact ⟨additive.1, inductionHypothesis additive.2⟩

end ArrowScript
