import ArrowScript.Proofs.Inference.Bodies
import ArrowScript.Proofs.Inference.Moments
import ArrowScript.Proofs.Tree.Order

/-!
# Misplaced returns

The functions of a program stand in expressions only, at any depth, and the walk over all nodes
of the tree meets them in the order in which they begin. The validation reports of each of them
the returns behind which other statements come, one diagnostic for each, and nothing else.

Where it reports nothing, a body has no return but its last statement. So there is no choice
between returns, and the first one that the inference meets is the last statement.
-/

namespace ArrowScript

/-! ## The functions of a tree -/

namespace Expression

/-- Tells whether an expression is a function. -/
def isFunction : Expression → Bool
  | arrow _ _ _ _ => true
  | _ => false

/-- The statements of the body, if the expression is a function. -/
def body : Expression → List Statement
  | arrow _ _ _ body => body.statements
  | _ => []

/-- Functions are the expressions of one kind. -/
theorem isFunction_eq (expression : Expression) :
    expression.isFunction = decide (expression.view.kind? = some .arrow) := by
  cases expression <;> rfl

end Expression

/-- The functions of a program, at all depths, in the order in which they begin. -/
def Program.functions (program : Program) : List Expression :=
  (Statement.expressionsOf program.body).filter Expression.isFunction

namespace View

/-- The nodes of a tree that are functions, from the root downwards and from left to right. -/
def functions (view : View) : List View := view.preorder.filter (·.kind? = some .arrow)

/-- A node that is a function comes before those below it. -/
theorem functions_of_arrow {view : View} (isArrow : view.kind? = some .arrow) :
    view.functions = view :: view.children.flatMap functions := by
  rw [functions, preorder_eq, List.filter_cons, if_pos (decide_eq_true isArrow),
    List.filter_flatMap]
  rfl

/-- The functions of a node of another kind are those of its children. -/
theorem functions_of_kind {view : View} (other : decide (view.kind? = some .arrow) = false) :
    view.functions = view.children.flatMap functions := by
  rw [functions, preorder_eq, List.filter_cons, other, List.filter_flatMap]
  rfl

end View

/-- The name of a constant is no function. -/
theorem Identifier.functions_view (id : Identifier) : id.view.functions = [] :=
  View.functions_of_kind rfl

mutual

/-- There are no functions in an ascription. -/
theorem Ascription.functions_view (type : Ascription) : type.view.functions = [] := by
  match type with
  | .named offset name => exact View.functions_of_kind rfl
  | .array offset element =>
    rw [View.functions_of_kind rfl]
    simp [Ascription.view, View.children, element.functions_view]
  | .function offset params result =>
    rw [View.functions_of_kind rfl]
    simp [Ascription.view, View.children, List.flatMap_map, result.functions_view,
      Parameter.functions_views params]

/-- There are no functions in a parameter. -/
theorem Parameter.functions_view (param : Parameter) : param.view.functions = [] := by
  match param with
  | { offset, name, ascription := none, declaration } => exact View.functions_of_kind rfl
  | { offset, name, ascription := some type, declaration } =>
    rw [View.functions_of_kind rfl]
    simp [Parameter.view, View.children, type.functions_view]

/-- There are no functions in several parameters. -/
theorem Parameter.functions_views (params : List Parameter) :
    (params.flatMap fun param => param.view.functions) = [] := by
  match params with
  | [] => rfl
  | param :: rest =>
    rw [List.flatMap_cons, param.functions_view, Parameter.functions_views rest, List.append_nil]

end

/-- There are no functions in an ascription that may be missing. -/
theorem Ascription.functions_viewOf (type : Option Ascription) :
    (type.toList.flatMap fun type => type.view.functions) = [] := by
  cases type with
  | none => rfl
  | some type => rw [Option.toList_some, List.flatMap_singleton, type.functions_view]

mutual

/-- The nodes of an expression that are functions are the functions among it and the
expressions that stand in it. -/
theorem Expression.functions_view (expression : Expression) :
    expression.view.functions =
      ((expression :: expression.inside).filter Expression.isFunction).map Expression.view := by
  match expression with
  | .number _ _ | .string _ _ | .boolean _ _ | .identifier _ =>
    rw [View.functions_of_kind rfl]
    rfl
  | .array offset elements =>
    rw [View.functions_of_kind rfl, Expression.children_array, List.flatMap_map,
      Expression.functions_views elements]
    rfl
  | .member offset object index =>
    rw [View.functions_of_kind rfl, Expression.children_member, List.flatMap_cons,
      List.flatMap_singleton, object.functions_view, index.functions_view, ← List.map_append,
      ← List.filter_append]
    rfl
  | .binary offset left operator right =>
    rw [View.functions_of_kind rfl, Expression.children_binary, List.flatMap_cons,
      List.flatMap_singleton, left.functions_view, right.functions_view, ← List.map_append,
      ← List.filter_append]
    rfl
  | .conditional offset test consequent alternate =>
    rw [View.functions_of_kind rfl, Expression.children_conditional, List.flatMap_cons,
      List.flatMap_cons, List.flatMap_singleton, test.functions_view, consequent.functions_view,
      alternate.functions_view, ← List.map_append, ← List.map_append, ← List.filter_append,
      ← List.filter_append, ← List.append_assoc]
    rfl
  | .arrow offset params result { offset := opening, statements } =>
    have inBody : (Block.mk opening statements).view.functions =
        ((Statement.expressionsOf statements).filter Expression.isFunction).map
          Expression.view := by
      rw [View.functions_of_kind rfl, Block.children_view, List.flatMap_map,
        Statement.functions_views statements]
    rw [View.functions_of_arrow rfl, Expression.children_arrow, List.flatMap_append,
      List.flatMap_append, List.flatMap_map, List.flatMap_map, List.flatMap_singleton, inBody,
      Parameter.functions_views, Ascription.functions_viewOf]
    rfl
  | .call offset callee arguments =>
    rw [View.functions_of_kind rfl, Expression.children_call, List.flatMap_cons, List.flatMap_map,
      callee.functions_view, Expression.functions_views arguments, ← List.map_append,
      ← List.filter_append]
    rfl

/-- The nodes of several expressions that are functions. -/
theorem Expression.functions_views (expressions : List Expression) :
    (expressions.flatMap fun expression => expression.view.functions) =
      ((Expression.listed expressions).filter Expression.isFunction).map Expression.view := by
  match expressions with
  | [] => rfl
  | expression :: rest =>
    rw [List.flatMap_cons, expression.functions_view, Expression.functions_views rest,
      Expression.listed, ← List.map_append, ← List.filter_append]

/-- The nodes of a statement that are functions. -/
theorem Statement.functions_view (statement : Statement) :
    statement.view.functions =
      (statement.expressions.filter Expression.isFunction).map Expression.view := by
  match statement with
  | .constant offset id ascription initial inferred =>
    rw [View.functions_of_kind rfl, Statement.children_constant, List.flatMap_cons,
      List.flatMap_append, List.flatMap_map, List.flatMap_singleton, id.functions_view,
      Ascription.functions_viewOf, initial.functions_view]
    rfl
  | .returning offset none inferred => exact View.functions_of_kind rfl
  | .returning offset (some argument) inferred =>
    rw [View.functions_of_kind rfl, Statement.children_returning, List.flatMap_map,
      Option.toList_some, List.flatMap_singleton, argument.functions_view]
    rfl

/-- The nodes of several statements that are functions. -/
theorem Statement.functions_views (statements : List Statement) :
    (statements.flatMap fun statement => statement.view.functions) =
      ((Statement.expressionsOf statements).filter Expression.isFunction).map Expression.view := by
  match statements with
  | [] => rfl
  | statement :: rest =>
    rw [List.flatMap_cons, statement.functions_view, Statement.functions_views rest,
      Statement.expressionsOf, List.filter_append, List.map_append]

end

/-- The functions of a program are all nodes of their kind, in the order of the walk. -/
theorem Program.functions_view (program : Program) :
    program.view.functions = program.functions.map Expression.view := by
  rw [View.functions_of_kind rfl, Program.children_view, List.flatMap_map,
    Statement.functions_views, Program.functions]

/-! ## What is reported -/

/-- The returns in a body that are not its last statement. -/
def misplacedReturns (body : List Statement) : List Statement :=
  (body.zipIdx.filter fun (statement, index) =>
    statement.isReturn && index + 1 != body.length).map (·.1)

/-- The misplaced returns are those before the last statement. -/
theorem misplacedReturns_eq (body : List Statement) :
    misplacedReturns body = body.dropLast.filter Statement.isReturn := by
  rcases List.eq_nil_or_concat body with rfl | ⟨front, last, rfl⟩
  · rfl
  rw [List.concat_eq_append]
  have before : (front.zipIdx.filter fun (statement, index) =>
      statement.isReturn && index + 1 != (front ++ [last]).length) =
        front.zipIdx.filter (Statement.isReturn ∘ Prod.fst) := by
    refine List.filter_congr fun ⟨statement, index⟩ among => ?_
    have inside : index + 1 ≠ (front ++ [last]).length := by
      have := List.snd_lt_of_mem_zipIdx among
      simp only [List.length_append, List.length_singleton] at this ⊢
      omega
    simp only [bne_iff_ne.mpr inside, Bool.and_true, Function.comp_apply]
  have final : ([last].zipIdx front.length).filter (fun (statement, index) =>
      statement.isReturn && index + 1 != (front ++ [last]).length) = [] := by
    simp
  rw [misplacedReturns, List.dropLast_concat, List.zipIdx_append, List.filter_append, Nat.zero_add,
    before, final, List.append_nil, ← List.filter_map, List.zipIdx_map_fst]

/-- No return is misplaced when only the last statement may be one. -/
theorem misplacedReturns_eq_nil {body : List Statement} :
    misplacedReturns body = [] ↔ ReturnsLast body := by
  rw [misplacedReturns_eq, List.filter_eq_nil_iff]
  simp only [ReturnsLast, Bool.not_eq_true]

/-- The diagnostics for the misplaced returns of an expression, if it is a function. -/
def Expression.returnReports (function : Expression) : List Diagnostic :=
  (misplacedReturns function.body).map fun statement => ⟨.returnNotLast, statement.offset⟩

/-- Only functions count among several expressions. -/
theorem Expression.flatMap_returnReports (expressions : List Expression) :
    (expressions.filter isFunction).flatMap returnReports = expressions.flatMap returnReports := by
  induction expressions with
  | nil => rfl
  | cons first rest inductionHypothesis =>
    rw [List.filter_cons, List.flatMap_cons, ← inductionHypothesis]
    cases first <;> rfl

/-- The validation of a body reports its misplaced returns. -/
theorem Expression.returnReports_arrow (offset : Int) (params : List Parameter)
    (result : Option Ascription) (body : Block) :
    (arrow offset params result body).returnReports = earlyReturns body.statements := by
  rw [returnReports, misplacedReturns_eq]
  rfl

mutual

/-- The validation of an expression goes through it and the expressions that stand in it. -/
theorem Expression.validate_eq (expression : Expression) :
    expression.validate = (expression :: expression.inside).flatMap Expression.returnReports := by
  match expression with
  | .number _ _ | .string _ _ | .boolean _ _ | .identifier _ => rfl
  | .array offset elements => exact Expression.validateAll_eq elements
  | .member offset object index =>
    rw [Expression.validate, object.validate_eq, index.validate_eq, ← List.flatMap_append]
    rfl
  | .binary offset left operator right =>
    rw [Expression.validate, left.validate_eq, right.validate_eq, ← List.flatMap_append]
    rfl
  | .conditional offset test consequent alternate =>
    rw [Expression.validate, test.validate_eq, consequent.validate_eq, alternate.validate_eq,
      ← List.flatMap_append, ← List.flatMap_append]
    rfl
  | .arrow offset params result { offset := opening, statements } =>
    rw [Expression.validate, Statement.validateAll_eq statements, List.flatMap_cons,
      Expression.returnReports_arrow]
    rfl
  | .call offset callee arguments =>
    rw [Expression.validate, callee.validate_eq, Expression.validateAll_eq arguments,
      ← List.flatMap_append]
    rfl

/-- The validation of several expressions goes through all that stand in them. -/
theorem Expression.validateAll_eq (expressions : List Expression) :
    Expression.validateAll expressions =
      (Expression.listed expressions).flatMap Expression.returnReports := by
  match expressions with
  | [] => rfl
  | expression :: rest =>
    rw [Expression.validateAll, expression.validate_eq, Expression.validateAll_eq rest,
      ← List.flatMap_append]
    rfl

/-- The validation of a statement goes through the expressions in it. -/
theorem Statement.validate_eq (statement : Statement) :
    statement.validate = statement.expressions.flatMap Expression.returnReports := by
  match statement with
  | .constant offset id ascription initial inferred => exact initial.validate_eq
  | .returning offset none inferred => rfl
  | .returning offset (some argument) inferred => exact argument.validate_eq

/-- The validation of several statements goes through the expressions in them. -/
theorem Statement.validateAll_eq (statements : List Statement) :
    Statement.validateAll statements =
      (Statement.expressionsOf statements).flatMap Expression.returnReports := by
  match statements with
  | [] => rfl
  | statement :: rest =>
    rw [Statement.validateAll, statement.validate_eq, Statement.validateAll_eq rest,
      Statement.expressionsOf, List.flatMap_append]

end

/-- The validation of a program goes through its functions. -/
theorem Program.validate_eq (program : Program) :
    program.validate = program.functions.flatMap Expression.returnReports := by
  rw [Program.functions, Expression.flatMap_returnReports]
  exact Statement.validateAll_eq program.body

/-! ## The type of a body -/

/-- The type that the last statement of a body returns, if it is a return. -/
def lastReturned (body : List Statement) : Ty :=
  match body.getLast? with
  | some (.returning _ _ (some type)) => type
  | _ => .primitive .void

/-- The first return of a body in which only the last statement may be one is that
statement. -/
theorem Inferrer.returnedType_eq_last {body : List (Statement × Ty)}
    (last : ReturnsLast (body.map (·.1)))
    (filled : ∀ pair ∈ body, pair.1.inferred = some pair.2) :
    returnedType body = lastReturned (body.map (·.1)) := by
  rcases List.eq_nil_or_concat body with rfl | ⟨front, pair, rfl⟩
  · rfl
  rw [List.concat_eq_append] at last filled ⊢
  have member : pair ∈ front ++ [pair] := List.mem_append_right _ (List.mem_singleton_self _)
  have fills := filled pair member
  obtain ⟨statement, type⟩ := pair
  cases statement with
  | returning offset argument inferred =>
    rw [returnedType_eq last member rfl, lastReturned, List.map_append, List.map_singleton,
      List.getLast?_concat]
    obtain rfl : inferred = some type := fills
    rfl
  | constant offset id ascription initial inferred =>
    -- none of the statements before is a return either
    have without :
        (front ++ [(Statement.constant offset id ascription initial inferred, type)]).find?
          (·.1.isReturn) = none := by
      rw [List.find?_eq_none]
      intro other among
      rw [ReturnsLast, List.map_append, List.map_singleton, List.dropLast_concat] at last
      rcases List.mem_append.mp among with before | final
      · simp [last other.1 (List.mem_map_of_mem before)]
      · rw [List.mem_singleton.mp final]
        exact Bool.false_ne_true
    rw [returnedType, without, lastReturned, List.map_append, List.map_singleton,
      List.getLast?_concat]
    rfl

open Inferrer

/-- The validation of a program reports, for each function at whatever place of the tree, each
return that is not the last statement of its body, and nothing else: functions in the order of
the walk over all nodes, and the returns of one in the order of its body. Where it reports
nothing, a return can only be the last statement of a body, and the type with which the
inference goes on behind a body is the one that is filled into this statement, or void if it is
no return. -/
theorem Program.validate_exact (program : Program) :
    program.view.preorder.filter (·.kind? = some .arrow) =
      program.functions.map Expression.view ∧
    program.validate = (program.functions.flatMap fun function =>
      (misplacedReturns function.body).map fun statement =>
        ⟨.returnNotLast, statement.offset⟩) ∧
    (program.validate = [] → ∀ offset params result body,
      .arrow offset params result body ∈ program.functions →
      (∀ index statement, body.statements[index]? = some statement →
        statement.isReturn = true → index + 1 = body.statements.length) ∧
      ∀ state, (inferExpression (.arrow offset params result body)).run state =
        let bound := (bindParameters params).run state
        let typed := (inferStatements body.statements).run bound.2
        let returned := (ascribe (lastReturned (typed.1.map (·.1))) result offset).run typed.2
        ((.arrow offset params result { body with statements := typed.1.map (·.1) },
            .function bound.1 returned.1),
          { returned.2 with
            environment := state.environment
            undetermined := state.undetermined })) := by
  refine ⟨program.functions_view, program.validate_eq, ?_⟩
  intro valid offset params result body among
  rw [program.validate_eq, List.flatMap_eq_nil_iff] at valid
  have last : ReturnsLast body.statements :=
    misplacedReturns_eq_nil.mp (List.map_eq_nil_iff.mp (valid _ among))
  refine ⟨?_, fun state => ?_⟩
  · intro index statement here isReturn
    by_contra elsewhere
    have inside := (List.getElem?_eq_some_iff.mp here).1
    have earlier : body.statements.dropLast[index]? = some statement := by
      rw [List.getElem?_dropLast, if_pos (by omega), here]
    exact absurd isReturn (by simp [last statement (List.mem_of_getElem? earlier)])
  · rcases ran : (inferStatements body.statements).run ((bindParameters params).run state).2 with
      ⟨typed, after⟩
    obtain ⟨sameKinds, filled⟩ := inferStatements_filled ran
    have type := returnedType_eq_last (returnsLast_congr last sameKinds) filled
    obtain ⟨opening, statements⟩ := body
    simp only [inferExpression_arrow, ran, type]

/-- The program `const f = () => { const a = 1; return (x) => { return a; }; };`: the last statement
of the body is the return whose type the function has. -/
theorem Program.validate_exact_nested :
    let inner : Expression := .arrow 38 [{ offset := 39, name := "x" }] none
      { offset := 45, statements := [.returning 47 (some (.identifier ⟨54, "a", none⟩))] }
    let body : Block :=
      { offset := 16
        statements :=
          [.constant 18 ⟨24, "a", none⟩ none (.number 28 (.int 1)), .returning 31 (some inner)] }
    let program : Program := { body := [.constant 0 ⟨6, "f", none⟩ none (.arrow 10 [] none body)] }
    program.validate = [] ∧ .arrow 10 [] none body ∈ program.functions ∧
      body.statements[1]? = some (.returning 31 (some inner)) ∧ 1 + 1 = body.statements.length ∧
      ((inferExpression (.arrow 10 [] none body)).run {}).1.2 =
        .function [] (lastReturned (((inferStatements body.statements).run {}).1.map (·.1))) ∧
      (lastReturned (((inferStatements body.statements).run {}).1.map (·.1))).text =
        "(t0) -> Number" := by
  intro inner body program
  have valid : program.validate = [] := rfl
  have among : .arrow 10 [] none body ∈ program.functions := List.mem_cons_self
  obtain ⟨last, infers⟩ := program.validate_exact.2.2 valid 10 [] none body among
  exact ⟨valid, among, rfl, last 1 _ rfl rfl, congrArg (·.1.2) (infers {}), by decide +kernel⟩

end ArrowScript
