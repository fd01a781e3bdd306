import ArrowScript.Proofs.Inference.Sums
import ArrowScript.Proofs.Problems.Codes

/-!
# What the inference reports

The unification of two types reports conflicts: terms of different forms, functions with
different numbers of parameters, and types that would be infinite. The rules of the
inference add operands that are not numeric and callees that are no functions. On additive
trees there is nothing else to report.
-/

namespace ArrowScript

/-! ## Unification -/

namespace Solver

variable {α : Type}

/-- All problems that a unification answers with are conflicts. -/
def Finds (solver : Solver (List Problem)) : Prop :=
  ∀ store, ∀ problem ∈ (solver.run store).1, problem.code ∈ ErrorCode.conflicts

namespace Finds

/-- No problems. -/
theorem nothing : Finds (pure []) := fun _ => nofun

/-- One problem. -/
theorem one {problem : Problem} (conflict : problem.code ∈ ErrorCode.conflicts) :
    Finds (pure [problem]) :=
  fun _ _ member => List.mem_singleton.mp member ▸ conflict

/-- Problems that are found after other steps. -/
theorem after (solver : Solver α) {next : α → Solver (List Problem)}
    (finds : ∀ result, Finds (next result)) : Finds (solver >>= next) :=
  fun store => finds (solver.run store).1 (solver.run store).2

/-- The problems of two unifications. -/
theorem both {first second : Solver (List Problem)} (here : Finds first)
    (further : Finds second) : Finds (do return (← first) ++ (← second)) :=
  fun store problem member => (List.mem_append.mp member).elim (here store problem)
    (further (first.run store).2 problem)

/-- A choice. -/
theorem ite {condition : Prop} [Decidable condition] {first second : Solver (List Problem)}
    (positive : Finds first) (negative : Finds second) :
    Finds (if condition then first else second) := by
  split
  · exact positive
  · exact negative

end Finds

/-- Terms of different forms. -/
theorem mismatch_finds (left right : Ty) : Finds (mismatch left right) :=
  .after _ fun _ => .after _ fun _ => .one (List.mem_cons_self ..)

/-- Linking a free variable. -/
theorem bindVariable_finds (free : VariableId) (term : Ty) : Finds (bindVariable free term) := by
  have linked : Finds (do
      modify (·.setLink free term)
      return []) := .after _ fun _ => .nothing
  have infinite : Finds (do
      if ← occursIn free term then
        let left ← print (.var free)
        let right ← print term
        return [.infiniteType left right]
      else
        modify (·.setLink free term)
        return []) :=
    .after _ fun _ => .ite (.after _ fun _ => .after _ fun _ => .one (.tail _ (.head _))) linked
  cases term with
  | var other => exact .ite .nothing linked
  | _ => exact infinite

section Parts

variable {atVariable : Ty → Ty → Solver (List Problem)}

mutual

/-- Two terms, part by part. -/
theorem unifyParts_finds (finds : ∀ left right, Finds (atVariable left right)) (left right : Ty) :
    Finds (unifyParts atVariable left right) := by
  match left, right with
  | .var id, right => exact finds (.var id) right
  | .array left, .array right => exact unifyParts_finds finds left right
  | .function leftParams leftResult, .function rightParams rightResult =>
    exact .ite (.one (.tail _ (.tail _ (.head _))))
      (.both (unifyPairs_finds finds leftParams rightParams)
        (unifyParts_finds finds leftResult rightResult))
  | .primitive left, .primitive right => exact .ite .nothing (mismatch_finds _ _)
  | .primitive _, .var id | .array _, .var id | .function _ _, .var id | .shapeless, .var id =>
    exact finds _ (.var id)
  | .primitive _, .array _ | .primitive _, .function _ _ | .primitive _, .shapeless
  | .array _, .primitive _ | .array _, .function _ _ | .array _, .shapeless
  | .function _ _, .primitive _ | .function _ _, .array _ | .function _ _, .shapeless
  | .shapeless, .primitive _ | .shapeless, .array _ | .shapeless, .function _ _
  | .shapeless, .shapeless =>
    exact mismatch_finds _ _

/-- The terms of two lists, pair by pair. -/
theorem unifyPairs_finds (finds : ∀ left right, Finds (atVariable left right))
    (left right : List Ty) : Finds (unifyPairs atVariable left right) := by
  match left, right with
  | left :: leftRest, right :: rightRest =>
    exact .both (unifyParts_finds finds left right) (unifyPairs_finds finds leftRest rightRest)
  | [], _ | _ :: _, [] => exact .nothing

end

end Parts

/-- Two terms of which one may be a linked variable. -/
theorem unifyWithin_finds (limit : Nat) (left right : Ty) :
    Finds (unifyWithin limit left right) := by
  induction limit generalizing left right with
  | zero => exact .nothing
  | succ limit inductionHypothesis =>
    refine .after _ fun left => .after _ fun right => ?_
    split
    · exact bindVariable_finds _ _
    · exact bindVariable_finds _ _
    · exact unifyParts_finds inductionHypothesis _ _

/-- Two terms. -/
theorem unify_finds (left right : Ty) : Finds (unify left right) :=
  .after _ fun _ => unifyWithin_finds _ left right

end Solver

/-! ## Rules of the inference -/

namespace Inferrer

variable {α β : Type}

/-- The walk keeps the diagnostics among the problems of types. -/
def Reports (walk : Inferrer α) : Prop :=
  ∀ inference : Inference, Coded ErrorCode.typing inference.diagnostics →
    Coded ErrorCode.typing (walk.run inference).2.diagnostics

variable {walk other : Inferrer α} {next : α → Inferrer β}

namespace Reports

/-- A result. -/
theorem pure (result : α) : Reports (pure result) := fun _ coded => coded

/-- A look at what is known. -/
theorem get : Reports get := fun _ coded => coded

/-- Two walks, one after the other. -/
theorem bind (first : Reports walk) (second : ∀ result, Reports (next result)) :
    Reports (walk >>= next) :=
  fun inference coded =>
    second (walk.run inference).1 (walk.run inference).2 (first inference coded)

/-- A choice. -/
theorem ite {condition : Prop} [Decidable condition] (positive : Reports walk)
    (negative : Reports other) : Reports (if condition then walk else other) := by
  split
  · exact positive
  · exact negative

/-- A computation on the store. -/
theorem solve (solver : Solver α) : Reports (solve solver) := fun _ coded => coded

/-- A new type variable. -/
theorem freshVariable : Reports freshVariable := .bind (.solve _) fun _ => .pure _

/-- Recording problems of types. -/
theorem report {problems : List Problem} (offset : Int)
    (typing : ∀ problem ∈ problems, problem.code ∈ ErrorCode.typing) :
    Reports (report problems offset) := by
  refine fun inference coded => coded.append fun diagnostic member => ?_
  obtain ⟨problem, among, rfl⟩ := List.mem_map.mp member
  exact typing problem among

/-- Recording one problem of types. -/
theorem reportOne {problem : Problem} (offset : Int) (typing : problem.code ∈ ErrorCode.typing) :
    Reports (Inferrer.report [problem] offset) :=
  .report offset fun _ member => List.mem_singleton.mp member ▸ typing

/-- Unifying two types. -/
theorem unify (left right : Ty) (offset : Int) : Reports (unify left right offset) := by
  have among : ErrorCode.conflicts ⊆ ErrorCode.typing := by decide
  refine fun inference coded => coded.append fun diagnostic member => ?_
  obtain ⟨problem, found, rfl⟩ := List.mem_map.mp member
  exact among (Solver.unify_finds left right inference.store problem found)

/-- Giving a name a type. -/
theorem bound (name : String) (type : Ty) : Reports (Inferrer.bind name type) :=
  fun _ coded => coded

/-- The type of a use of a name. -/
theorem lookup (name : String) : Reports (lookup name) := by
  refine .bind .get fun inference => ?_
  split
  · exact freshVariable
  · exact .bind .get fun _ => .solve _

/-- A scope of its own. -/
theorem inNewScope (reports : Reports walk) : Reports (inNewScope walk) :=
  .bind .get fun _ => .bind reports fun _ => .bind (fun _ coded => coded) fun _ => .pure _

end Reports

mutual

/-- The type that an ascription denotes. -/
theorem ascriptionType_reports (ascription : Ascription) : Reports (ascriptionType ascription) := by
  match ascription with
  | .named _ name =>
    rw [ascriptionType]
    split
    · exact .pure _
    · exact .freshVariable
  | .array _ element => exact .bind (ascriptionType_reports element) fun _ => .pure _
  | .function _ params result =>
    exact .bind (parameterTypes_reports params) fun _ =>
      .bind (ascriptionType_reports result) fun _ => .pure _

/-- The type of a parameter. -/
theorem parameterType_reports (param : Parameter) : Reports (parameterType param) := by
  match param with
  | { ascription := some ascription, .. } => exact ascriptionType_reports ascription
  | { ascription := none, .. } => exact .freshVariable

/-- The types of several parameters. -/
theorem parameterTypes_reports (params : List Parameter) : Reports (parameterTypes params) := by
  match params with
  | [] => exact .pure _
  | param :: rest =>
    exact .bind (parameterType_reports param) fun _ => .bind (parameterTypes_reports rest)
      fun _ => .pure _

end

/-- The parameters of a function whose body is inferred next. -/
theorem bindParameters_reports (params : List Parameter) : Reports (bindParameters params) := by
  induction params with
  | nil => exact .pure _
  | cons param rest inductionHypothesis =>
    exact .bind (parameterType_reports param) fun _ => .bind (.bound _ _) fun _ =>
      .bind (fun _ coded => coded) fun _ => .bind inductionHypothesis fun _ => .pure _

/-- Whether a type is the primitive of strings. -/
theorem isString_reports (type : Ty) : Reports (isString type) := by
  refine .bind (.solve _) fun head => ?_
  split <;> exact .pure _

/-- The type of a sum. -/
theorem sumType_reports (left right : Ty) (leftOffset rightOffset offset : Int)
    (operator : String) :
    Reports (sumType left right leftOffset rightOffset offset operator) := by
  have textual : Reports (do if ← isString left then pure true else isString right) :=
    .bind (isString_reports left) fun _ => .ite (.pure true) (isString_reports right)
  have mismatched : ErrorCode.operatorTypeMismatch ∈ ErrorCode.typing := by decide
  rw [sumType_eq]
  refine .bind textual fun _ => .ite ?_ ?_
  · exact .bind (.unify _ _ _) fun _ => .bind (.unify _ _ _) fun _ => .pure _
  · refine .bind (.solve _) fun operand => .bind (.unify _ _ _) fun leftFits =>
      .bind (.unify _ _ _) fun rightFits => .bind (.solve _) fun reached => ?_
    have rejected : Reports (rejectSum operator offset (leftFits && rightFits) reached) :=
      .ite (.bind (.solve _) fun _ => .bind (.reportOne _ mismatched) fun _ => .freshVariable)
        .freshVariable
    change Reports (settleSum operator offset (leftFits && rightFits) reached)
    unfold settleSum
    split
    · exact .bind (.solve _) fun _ => .pure _
    · exact .pure _
    · exact .pure _
    · exact rejected

/-- The arguments of a call. -/
theorem passArguments_reports (params : List Ty) (arguments : List (Expression × Ty)) :
    Reports (passArguments params arguments) := by
  induction params generalizing arguments with
  | nil => exact .pure ()
  | cons param params inductionHypothesis =>
    cases arguments with
    | nil => exact .pure ()
    | cons argument arguments =>
      exact .bind (.unify _ _ _) fun _ => inductionHypothesis arguments

/-- The type of a call. -/
theorem callType_reports (callee : Ty) (arguments : List (Expression × Ty)) (offset : Int) :
    Reports (callType callee arguments offset) := by
  have count : ErrorCode.arityMismatch ∈ ErrorCode.typing := by decide
  have called : ErrorCode.notCallable ∈ ErrorCode.typing := by decide
  unfold callType
  split
  · exact .bind .freshVariable fun _ => .bind (.unify _ _ _) fun _ => .pure _
  · exact .ite (.bind (.reportOne _ count) fun _ => .freshVariable)
      (.bind (passArguments_reports _ _) fun _ => .pure _)
  · exact .bind (.solve _) fun _ => .bind (.reportOne _ called) fun _ => .freshVariable

/-- The type of a function. -/
theorem functionType_reports (params : List Ty) (body : List (Statement × Ty))
    (result : Option Ascription) (offset : Int) :
    Reports (functionType params body result offset) := by
  cases result with
  | none => exact .pure _
  | some ascription =>
    exact .bind (ascriptionType_reports ascription) fun _ => .bind (.unify _ _ _) fun _ => .pure _

/-! ## Trees -/

mutual

/-- The inference of an expression. -/
theorem inferExpression_reports (expression : Expression) (additive : expression.Additive) :
    Reports (inferExpression expression) := by
  match expression with
  | .number _ _ | .string _ _ | .boolean _ _ => exact .pure _
  | .identifier identifier => exact .bind (.lookup identifier.name) fun _ => .pure _
  | .array _ [] => exact .bind .freshVariable fun _ => .pure _
  | .array _ (first :: rest) =>
    exact .bind (inferExpression_reports first additive.1) fun (_, element) =>
      .bind (inferElements_reports element rest additive.2) fun _ => .pure _
  | .member _ object index =>
    exact .bind (inferExpression_reports object additive.1) fun _ =>
      .bind (inferExpression_reports index additive.2) fun _ => .bind (.unify _ _ _) fun _ =>
        .bind .freshVariable fun _ => .bind (.unify _ _ _) fun _ => .pure _
  | .binary _ left operator right =>
    obtain ⟨leftAdditive, plus, rightAdditive⟩ := additive
    refine .bind (inferExpression_reports left leftAdditive) fun (_, _) =>
      .bind (inferExpression_reports right rightAdditive) fun (_, _) => ?_
    simp only [if_pos plus]
    exact .bind (sumType_reports _ _ _ _ _ _) fun _ => .pure _
  | .conditional _ test consequent alternate =>
    obtain ⟨first, second, third⟩ := additive
    exact .bind (inferExpression_reports test first) fun _ => .bind (.unify _ _ _) fun _ =>
      .bind (inferExpression_reports consequent second) fun _ =>
        .bind (inferExpression_reports alternate third) fun _ => .bind .freshVariable fun _ =>
          .bind (.unify _ _ _) fun _ => .bind (.unify _ _ _) fun _ => .pure _
  | .arrow _ params result { statements, .. } =>
    exact .inNewScope (.bind (bindParameters_reports params) fun _ =>
      .bind (inferStatements_reports statements additive) fun _ =>
        .bind (functionType_reports _ _ result _) fun _ => .pure _)
  | .call _ callee arguments =>
    exact .bind (inferExpression_reports callee additive.1) fun _ => .bind (.solve _) fun _ =>
      .bind (inferArguments_reports arguments additive.2) fun _ =>
        .bind (callType_reports _ _ _) fun _ => .pure _

/-- The inference of further elements. -/
theorem inferElements_reports (element : Ty) (expressions : List Expression)
    (additive : Expression.AdditiveAll expressions) :
    Reports (inferElements element expressions) := by
  match expressions with
  | [] => exact .pure _
  | expression :: rest =>
    exact .bind (inferExpression_reports expression additive.1) fun _ =>
      .bind (.unify _ _ _) fun _ => .bind (inferElements_reports element rest additive.2)
        fun _ => .pure _

/-- The inference of arguments. -/
theorem inferArguments_reports (expressions : List Expression)
    (additive : Expression.AdditiveAll expressions) : Reports (inferArguments expressions) := by
  match expressions with
  | [] => exact .pure _
  | expression :: rest =>
    exact .bind (inferExpression_reports expression additive.1) fun _ =>
      .bind (inferArguments_reports rest additive.2) fun _ => .pure _

/-- The inference of a statement. -/
theorem inferStatement_reports (statement : Statement) (additive : statement.Additive) :
    Reports (inferStatement statement) := by
  match statement with
  | .constant _ _ none initial _ =>
    exact .bind (inferExpression_reports initial additive) fun _ => .bind (.pure _) fun _ =>
      .bind (.bound _ _) fun _ => .pure _
  | .constant _ _ (some ascription) initial _ =>
    exact .bind (inferExpression_reports initial additive) fun _ =>
      .bind (ascriptionType_reports ascription) fun _ => .bind (.unify _ _ _) fun _ =>
        .bind (.pure _) fun _ => .bind (.bound _ _) fun _ => .pure _
  | .returning _ none _ => exact .pure _
  | .returning _ (some argument) _ =>
    exact .bind (inferExpression_reports argument additive) fun _ => .pure _

/-- The inference of several statements. -/
theorem inferStatements_reports (statements : List Statement)
    (additive : Statement.AdditiveAll statements) : Reports (inferStatements statements) := by
  match statements with
  | [] => exact .pure _
  | statement :: rest =>
    exact .bind (inferStatement_reports statement additive.1) fun _ =>
      .bind (inferStatements_reports rest additive.2) fun _ => .pure _

end

end Inferrer

/-- What is reported of an additive program are problems of types. -/
theorem Program.infer_coded {program : Program} (additive : Statement.AdditiveAll program.body) :
    Coded ErrorCode.typing program.infer.2 :=
  Inferrer.inferStatements_reports program.body additive {} .nil

end ArrowScript
