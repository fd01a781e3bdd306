import ArrowScript.Proofs.Inference.Sums
import ArrowScript.Proofs.Relocation.Analyses

/-!
# Inference on relocated trees

The inference reads no offset. It copies them into its diagnostics, and the store of the
variables, the environment and the types do not know of them.
-/

namespace ArrowScript

variable {move : Int → Int}

instance : Located String := ⟨fun _ => id⟩

instance : Located Inference where
  relocate move inference := { inference with diagnostics := relocate move inference.diagnostics }

namespace Inferrer

/-! ## Single steps -/

/-- A computation on the store, with a result that carries no offset. -/
theorem solve_relocates {α : Type} [Located α] (solver : Solver α)
    (kept : ∀ result : α, relocate move result = result) :
    Relocates move (solve solver) (solve solver) := by
  intro inference
  exact congrArg (·, { relocate move inference with store := (solver.run inference.store).2 })
    (kept (solver.run inference.store).1).symm

/-- A new type variable. -/
theorem freshVariable_relocates : Relocates move freshVariable freshVariable :=
  .bind (solve_relocates _ fun _ => rfl) fun id => .pure (Ty.var id)

/-- Recording problems. -/
theorem report_relocates (problems : List Problem) (offset : Int) :
    Relocates move (report problems offset) (report problems (move offset)) := by
  intro inference
  have added : relocate move (inference.diagnostics ++ problems.map (⟨·, offset⟩)) =
      relocate move inference.diagnostics ++ problems.map (⟨·, move offset⟩) := by
    rw [relocate_append]
    exact congrArg _ (List.map_map ..)
  exact congrArg (fun diagnostics => ((), { relocate move inference with diagnostics })) added.symm

/-- Problems carry no offsets. -/
theorem relocate_problems (problems : List Problem) : relocate move problems = problems :=
  List.map_id problems

/-- Types carry no offsets. -/
theorem relocate_types (types : List Ty) : relocate move types = types :=
  List.map_id types

/-- The first parts of relocated pairs. -/
theorem relocate_map_fst {α : Type} [Located α] (pairs : List (α × Ty)) :
    (relocate move pairs).map (·.1) = relocate move (pairs.map (·.1)) := by
  change (pairs.map _).map _ = (pairs.map _).map _
  rw [List.map_map, List.map_map]
  rfl

/-- Unifying two types. -/
theorem unify_relocates (left right : Ty) (offset : Int) :
    Relocates move (unify left right offset) (unify left right (move offset)) := by
  refine .bind (solve_relocates _ relocate_problems) fun problems => ?_
  rw [relocate_problems]
  exact .bind (report_relocates problems offset) fun _ => .pure problems.isEmpty

/-- Giving a name a type. -/
theorem bind_relocates (name : String) (type : Ty) :
    Relocates move (bind name type) (bind name type) := fun _ => rfl

/-- An instance of a type. -/
theorem instantiate_relocates (type : Ty) :
    Relocates move (instantiate type) (instantiate type) :=
  .bind (α := Inference) .get fun _ => solve_relocates _ fun _ => rfl

/-- The type of a use of a name. -/
theorem lookup_relocates (name : String) : Relocates move (lookup name) (lookup name) := by
  refine .bind (α := Inference) .get fun inference => ?_
  have kept : (relocate move inference).environment = inference.environment := rfl
  rw [kept]
  cases inference.environment.lookup name with
  | none => exact freshVariable_relocates
  | some type => exact instantiate_relocates type

/-- A scope of its own. -/
theorem inNewScope_relocates {α : Type} [Located α] {one other : Inferrer α}
    (relocates : Relocates move one other) :
    Relocates move (inNewScope one) (inNewScope other) :=
  .bind (α := Inference) .get fun _ => .bind relocates fun result =>
    .bind (fun _ => rfl) fun _ => .pure result

/-! ## Ascriptions and parameters -/

mutual

/-- The type that a relocated ascription denotes. -/
theorem ascriptionType_relocates (ascription : Ascription) :
    Relocates move (ascriptionType ascription) (ascriptionType (relocate move ascription)) := by
  match ascription with
  | .named offset name =>
    change Relocates move (ascriptionType (.named offset name))
      (ascriptionType (.named (move offset) name))
    rw [ascriptionType, ascriptionType]
    cases Primitive.ofTypeName? name with
    | none => exact freshVariable_relocates
    | some kind => exact .pure (Ty.primitive kind)
  | .array _ element =>
    exact .bind (ascriptionType_relocates element) fun type => .pure (Ty.array type)
  | .function _ params result =>
    refine .bind (parameterTypes_relocates params) fun types => ?_
    rw [relocate_types]
    exact .bind (ascriptionType_relocates result) fun type => .pure (Ty.function types type)

/-- The type of a relocated parameter. -/
theorem parameterType_relocates (param : Parameter) :
    Relocates move (parameterType param) (parameterType (relocate move param)) := by
  match param with
  | { ascription := some ascription, .. } => exact ascriptionType_relocates ascription
  | { ascription := none, .. } => exact freshVariable_relocates

/-- The types of several relocated parameters. -/
theorem parameterTypes_relocates (params : List Parameter) :
    Relocates move (parameterTypes params)
      (parameterTypes (Parameter.relocatedAll move params)) := by
  match params with
  | [] => exact .pure []
  | param :: rest =>
    exact .bind (parameterType_relocates param) fun type =>
      .bind (parameterTypes_relocates rest) fun types => .pure (type :: types)

end

/-- The parameters of a function whose body is inferred next. -/
theorem bindParameters_relocates (params : List Parameter) :
    Relocates move (bindParameters params) (bindParameters (relocate move params)) := by
  induction params with
  | nil => exact .pure []
  | cons param rest inductionHypothesis =>
    refine .bind (parameterType_relocates param) fun type => .bind ?_ fun _ =>
      .bind (fun _ => rfl) fun _ => .bind inductionHypothesis fun types => .pure (type :: types)
    obtain ⟨offset, name, ascription, declaration⟩ := param
    cases ascription with
    | none => exact bind_relocates name type
    | some ascription => exact bind_relocates name type

/-! ## Rules -/

/-- Whether a type is the primitive of strings. -/
theorem isString_relocates (type : Ty) : Relocates move (isString type) (isString type) := by
  refine .bind (solve_relocates _ fun _ => rfl) fun head => ?_
  cases head with
  | primitive kind => cases kind <;> exact .pure (σ := Inference) (α := Bool) _
  | _ => exact .pure (σ := Inference) false

/-- The type of a sum. -/
theorem sumType_relocates (left right : Ty) (leftOffset rightOffset offset : Int)
    (operator : String) :
    Relocates move (sumType left right leftOffset rightOffset offset operator)
      (sumType left right (move leftOffset) (move rightOffset) (move offset) operator) := by
  rw [sumType_eq, sumType_eq]
  have textual : Relocates (α := Bool) move
      (do if ← isString left then pure true else isString right)
      (do if ← isString left then pure true else isString right) :=
    .bind (isString_relocates left) fun found => .ite (.pure true) (isString_relocates right)
  refine .bind textual fun textual => .ite ?_ ?_
  · exact .bind (unify_relocates _ _ _) fun _ => .bind (unify_relocates _ _ _) fun _ =>
      .pure (Ty.primitive .string)
  · refine .bind (solve_relocates _ fun _ => rfl) fun operand =>
      .bind (unify_relocates _ _ _) fun leftFits => .bind (unify_relocates _ _ _) fun rightFits =>
        .bind (solve_relocates _ fun _ => rfl) fun reached => ?_
    have rejected : Relocates move (rejectSum operator offset (leftFits && rightFits) reached)
        (rejectSum operator (move offset) (leftFits && rightFits) reached) := by
      rw [rejectSum, rejectSum]
      cases leftFits && rightFits with
      | false => exact freshVariable_relocates
      | true =>
        exact .bind (solve_relocates _ fun _ => rfl) fun _ => .bind (report_relocates _ _)
          fun _ => freshVariable_relocates
    change Relocates move (settleSum operator offset (leftFits && rightFits) reached)
      (settleSum operator (move offset) (leftFits && rightFits) reached)
    unfold settleSum
    split
    · exact .bind (solve_relocates _ fun _ => rfl) fun _ => .pure (Ty.primitive .number)
    · exact .pure (Ty.primitive .number)
    · exact .pure (Ty.primitive .float)
    · exact rejected

/-- The arguments of a call. -/
theorem passArguments_relocates (params : List Ty) (arguments : List (Expression × Ty)) :
    Relocates move (passArguments params arguments)
      (passArguments params (relocate move arguments)) := by
  induction params generalizing arguments with
  | nil => exact .pure ()
  | cons param params inductionHypothesis =>
    cases arguments with
    | nil => exact .pure ()
    | cons argument arguments =>
      obtain ⟨argument, type⟩ := argument
      refine .bind ?_ fun _ => inductionHypothesis arguments
      exact Expression.offset_relocate move argument ▸ unify_relocates _ _ _

/-- The type of a call. -/
theorem callType_relocates (callee : Ty) (arguments : List (Expression × Ty)) (offset : Int) :
    Relocates move (callType callee arguments offset)
      (callType callee (relocate move arguments) (move offset)) := by
  have types : (relocate move arguments).map (·.2) = arguments.map (·.2) := List.map_map ..
  have count : (relocate move arguments).length = arguments.length := List.length_map ..
  unfold callType
  rw [types, count]
  split
  · exact .bind freshVariable_relocates fun result => .bind (unify_relocates _ _ _) fun _ =>
      .pure result
  · exact .ite (.bind (report_relocates _ _) fun _ => freshVariable_relocates)
      (.bind (passArguments_relocates _ _) fun _ => .pure (α := Ty) _)
  · exact .bind (solve_relocates _ fun _ => rfl) fun _ => .bind (report_relocates _ _) fun _ =>
      freshVariable_relocates

/-- The type of a function. -/
theorem functionType_relocates (params : List Ty) (body : List (Statement × Ty))
    (result : Option Ascription) (offset : Int) :
    Relocates move (functionType params body result offset)
      (functionType params (relocate move body) (relocate move result) (move offset)) := by
  have returned : ((relocate move body).find? (·.1.isReturn)).map (·.2) =
      (body.find? (·.1.isReturn)).map (·.2) := by
    change Option.map _ ((body.map (relocate move)).find? _) = _
    rw [List.find?_map, Option.map_map]
    have returns :
        (·.1.isReturn) ∘ relocate move = fun entry : Statement × Ty => entry.1.isReturn :=
      funext fun entry => Statement.isReturn_relocate move entry.1
    rw [returns]
    rfl
  unfold functionType
  rw [returned]
  cases result with
  | none => exact .pure (Ty.function params _)
  | some ascription =>
    exact .bind (ascriptionType_relocates ascription) fun annotated =>
      .bind (unify_relocates _ _ _) fun _ => .pure (Ty.function params annotated)

/-! ## Trees -/

mutual

/-- The inference of a relocated expression. -/
theorem inferExpression_relocates (expression : Expression) :
    Relocates move (inferExpression expression) (inferExpression (relocate move expression)) := by
  match expression with
  | .number offset value => exact .pure (Expression.number offset value, numeralType value)
  | .string offset value => exact .pure (Expression.string offset value, Ty.primitive .string)
  | .boolean offset value => exact .pure (Expression.boolean offset value, Ty.primitive .bool)
  | .identifier identifier =>
    exact .bind (lookup_relocates identifier.name) fun type =>
      .pure (Expression.identifier identifier, type)
  | .array offset [] =>
    exact .bind freshVariable_relocates fun element =>
      .pure (Expression.array offset [], Ty.array element)
  | .array offset (first :: rest) =>
    refine .bind (inferExpression_relocates first) fun (first, element) =>
      .bind (inferElements_relocates element rest) fun rest => ?_
    rw [← Expression.relocatedAll_eq]
    exact .pure (Expression.array offset (first :: rest), Ty.array element)
  | .member offset object index =>
    refine .bind (inferExpression_relocates object) fun (object, objectType) =>
      .bind (inferExpression_relocates index) fun (index, indexType) => .bind ?_ fun _ =>
        .bind freshVariable_relocates fun element => .bind ?_ fun _ =>
          .pure (Expression.member offset object index, element)
    · exact Expression.offset_relocate move index ▸ unify_relocates _ _ _
    · exact Expression.offset_relocate move object ▸ unify_relocates _ _ _
  | .binary offset left operator right =>
    refine .bind (inferExpression_relocates left) fun (left, leftType) =>
      .bind (inferExpression_relocates right) fun (right, rightType) => .ite (.bind ?_ fun type =>
        .pure (Expression.binary offset left operator right, type)) ?_
    · change Relocates move _ (sumType leftType rightType (relocate move left).offset
        (relocate move right).offset (move offset) operator)
      rw [Expression.offset_relocate, Expression.offset_relocate]
      exact sumType_relocates _ _ _ _ _ _
    · exact .bind (report_relocates _ _) fun _ => .bind freshVariable_relocates fun type =>
        .pure (Expression.binary offset left operator right, type)
  | .conditional offset test consequent alternate =>
    refine .bind (inferExpression_relocates test) fun (test, testType) => .bind ?_ fun _ =>
      .bind (inferExpression_relocates consequent) fun (consequent, consequentType) =>
        .bind (inferExpression_relocates alternate) fun (alternate, alternateType) =>
          .bind freshVariable_relocates fun result => .bind ?_ fun _ => .bind ?_ fun _ =>
            .pure (Expression.conditional offset test consequent alternate, result)
    · exact Expression.offset_relocate move test ▸ unify_relocates _ _ _
    · exact Expression.offset_relocate move consequent ▸ unify_relocates _ _ _
    · exact Expression.offset_relocate move alternate ▸ unify_relocates _ _ _
  | .arrow offset params result { offset := opening, statements } =>
    refine inNewScope_relocates (.bind (bindParameters_relocates params) fun types =>
      .bind (inferStatements_relocates statements) fun body => ?_)
    rw [relocate_types]
    refine .bind (functionType_relocates types body result offset) fun type => ?_
    change Relocates move _ (pure (Expression.arrow (move offset) (relocate move params)
      (relocate move result) ⟨move opening, (relocate move body).map (·.1)⟩, type))
    rw [relocate_map_fst, ← Statement.relocatedAll_eq]
    exact .pure (σ := Inference)
      (Expression.arrow offset params result ⟨opening, body.map (·.1)⟩, type)
  | .call offset callee arguments =>
    refine .bind (inferExpression_relocates callee) fun (callee, calleeType) =>
      .bind (solve_relocates _ fun _ => rfl) fun reached =>
        .bind (inferArguments_relocates arguments) fun arguments =>
          .bind (callType_relocates reached arguments offset) fun type => ?_
    change Relocates move _ (pure (Expression.call (move offset) (relocate move callee)
      ((relocate move arguments).map (·.1)), type))
    rw [relocate_map_fst, ← Expression.relocatedAll_eq]
    exact .pure (σ := Inference)
      (Expression.call offset callee (arguments.map (·.1)), type)

/-- The inference of further relocated elements. -/
theorem inferElements_relocates (element : Ty) (expressions : List Expression) :
    Relocates move (inferElements element expressions)
      (inferElements element (Expression.relocatedAll move expressions)) := by
  match expressions with
  | [] => exact .pure _
  | expression :: rest =>
    refine .bind (inferExpression_relocates expression) fun (expression, type) =>
      .bind ?_ fun _ => .bind (inferElements_relocates element rest) fun rest =>
        .pure (expression :: rest)
    exact Expression.offset_relocate move expression ▸ unify_relocates _ _ _

/-- The inference of relocated arguments. -/
theorem inferArguments_relocates (expressions : List Expression) :
    Relocates move (inferArguments expressions)
      (inferArguments (Expression.relocatedAll move expressions)) := by
  match expressions with
  | [] => exact .pure _
  | expression :: rest =>
    exact .bind (inferExpression_relocates expression) fun inferred =>
      .bind (inferArguments_relocates rest) fun others => .pure (inferred :: others)

/-- The inference of a relocated statement. -/
theorem inferStatement_relocates (statement : Statement) :
    Relocates move (inferStatement statement) (inferStatement (relocate move statement)) := by
  match statement with
  | .constant offset id none initial _ =>
    exact .bind (inferExpression_relocates initial) fun (initial, type) =>
      .bind (.pure type) fun type => .bind (bind_relocates id.name type) fun _ =>
        .pure (Statement.constant offset id none initial (some type), type)
  | .constant offset id (some ascription) initial _ =>
    refine .bind (inferExpression_relocates initial) fun (initial, initialType) =>
      .bind (ascriptionType_relocates ascription) fun type => .bind ?_ fun _ =>
        .bind (.pure type) fun type => .bind (bind_relocates id.name type) fun _ =>
          .pure (Statement.constant offset id (some ascription) initial (some type), type)
    exact Expression.offset_relocate move initial ▸ unify_relocates _ _ _
  | .returning offset none _ =>
    exact .pure (Statement.returning offset none (some (.primitive .void)), Ty.primitive .void)
  | .returning offset (some argument) _ =>
    exact .bind (inferExpression_relocates argument) fun (argument, type) =>
      .pure (Statement.returning offset (some argument) (some type), type)

/-- The inference of several relocated statements. -/
theorem inferStatements_relocates (statements : List Statement) :
    Relocates move (inferStatements statements)
      (inferStatements (Statement.relocatedAll move statements)) := by
  match statements with
  | [] => exact .pure _
  | statement :: rest =>
    exact .bind (inferStatement_relocates statement) fun inferred =>
      .bind (inferStatements_relocates rest) fun others => .pure (inferred :: others)

end

end Inferrer

/-! ## Programs -/

mutual

/-- Changing the types in a relocated expression. -/
theorem Expression.mapTypes_relocate (change : Ty → Ty) (expression : Expression) :
    (relocate move expression).mapTypes change = relocate move (expression.mapTypes change) := by
  match expression with
  | .number _ _ | .string _ _ | .boolean _ _ | .identifier _ => rfl
  | .array offset elements =>
    exact congrArg (Expression.array (move offset))
      (Expression.mapTypesAll_relocate change elements)
  | .member offset object index =>
    exact congrArg₂ (Expression.member (move offset)) (Expression.mapTypes_relocate change object)
      (Expression.mapTypes_relocate change index)
  | .binary offset left operator right =>
    exact congrArg₂ (Expression.binary (move offset) · operator ·)
      (Expression.mapTypes_relocate change left) (Expression.mapTypes_relocate change right)
  | .conditional offset test consequent alternate =>
    change Expression.conditional (move offset) ((relocate move test).mapTypes change)
      ((relocate move consequent).mapTypes change) ((relocate move alternate).mapTypes change) = _
    rw [Expression.mapTypes_relocate change test, Expression.mapTypes_relocate change consequent,
      Expression.mapTypes_relocate change alternate]
    rfl
  | .arrow offset params result { offset := opening, statements } =>
    exact congrArg (fun inner => Expression.arrow (move offset) (relocate move params)
      (relocate move result) ⟨move opening, inner⟩)
      (Statement.mapTypesAll_relocate change statements)
  | .call offset callee arguments =>
    exact congrArg₂ (Expression.call (move offset)) (Expression.mapTypes_relocate change callee)
      (Expression.mapTypesAll_relocate change arguments)

/-- Changing the types in several relocated expressions. -/
theorem Expression.mapTypesAll_relocate (change : Ty → Ty) (expressions : List Expression) :
    Expression.mapTypesAll change (Expression.relocatedAll move expressions) =
      Expression.relocatedAll move (Expression.mapTypesAll change expressions) := by
  match expressions with
  | [] => rfl
  | expression :: rest =>
    exact congrArg₂ List.cons (Expression.mapTypes_relocate change expression)
      (Expression.mapTypesAll_relocate change rest)

/-- Changing the types in a relocated statement. -/
theorem Statement.mapTypes_relocate (change : Ty → Ty) (statement : Statement) :
    (relocate move statement).mapTypes change = relocate move (statement.mapTypes change) := by
  match statement with
  | .constant offset id ascription initial inferred =>
    exact congrArg (Statement.constant (move offset) (relocate move id) (relocate move ascription) ·
      (inferred.map change)) (Expression.mapTypes_relocate change initial)
  | .returning _ none _ => rfl
  | .returning offset (some argument) inferred =>
    exact congrArg (fun argument =>
        Statement.returning (move offset) (some argument) (inferred.map change))
      (Expression.mapTypes_relocate change argument)

/-- Changing the types in several relocated statements. -/
theorem Statement.mapTypesAll_relocate (change : Ty → Ty) (statements : List Statement) :
    Statement.mapTypesAll change (Statement.relocatedAll move statements) =
      Statement.relocatedAll move (Statement.mapTypesAll change statements) := by
  match statements with
  | [] => rfl
  | statement :: rest =>
    exact congrArg₂ List.cons (Statement.mapTypes_relocate change statement)
      (Statement.mapTypesAll_relocate change rest)

end

/-- The inference of a relocated program. -/
theorem Program.infer_relocate (move : Int → Int) (program : Program) :
    (relocate move program).infer = relocate move program.infer := by
  have walked : (Inferrer.inferStatements (relocate move program.body)).run {} =
      relocate (α := List (Statement × Ty) × Inference) move
        ((Inferrer.inferStatements program.body).run {}) := by
    rw [← Statement.relocatedAll_eq]
    exact Inferrer.inferStatements_relocates program.body {}
  let outcome := (Inferrer.inferStatements program.body).run {}
  have body : Statement.mapTypesAll outcome.2.store.resolve ((relocate move outcome.1).map (·.1)) =
      relocate move
        (Statement.mapTypesAll outcome.2.store.resolve (outcome.1.map (·.1))) := by
    rw [Inferrer.relocate_map_fst, ← Statement.relocatedAll_eq, Statement.mapTypesAll_relocate,
      Statement.relocatedAll_eq]
  calc (relocate move program).infer
    _ = (⟨program.offset, Statement.mapTypesAll outcome.2.store.resolve
          ((relocate move outcome.1).map (·.1))⟩, relocate move outcome.2.diagnostics) :=
        congrArg (fun outcome => (Program.mk program.offset (Statement.mapTypesAll
          outcome.2.store.resolve (outcome.1.map (·.1))), outcome.2.diagnostics)) walked
    _ = relocate move program.infer :=
        congrArg (fun body => (Program.mk program.offset body,
          relocate move outcome.2.diagnostics)) body

end ArrowScript
