import ArrowScript.Compilation
import ArrowScript.Proofs.Inference.Coverage
import ArrowScript.Proofs.Inference.Visits
import ArrowScript.Proofs.Scope.Linking

/-!
# Inference can be repeated

Inference fills the slots for types and reads none of them, nor the links that the name
resolution has left. So a tree and a revision of it lead through the same states, and what
comes out differs by nothing but the links.

All analyses leave trees that differ in their slots only. Whatever of them have been run on
a tree, and however often, the inference finds in it what it finds in the tree that came
from the parser.
-/

namespace ArrowScript

namespace Inferrer

variable {α β : Type} {change : α → α} {alter : β → β} {walk other : Inferrer α}
  {next following : α → Inferrer β} {revision : Revision}

/-! ## Walks over revised trees -/

/-- The other walk answers with a change of what the one answers with, and does the same
to the state. -/
def Revises (change : α → α) (walk other : Inferrer α) : Prop :=
  ∀ inference, other.run inference =
    (change (walk.run inference).1, (walk.run inference).2)

namespace Revises

/-- A result. -/
theorem pure (result : α) : Revises change (pure result) (pure (change result)) :=
  fun _ => rfl

/-- Two walks, one after the other. -/
theorem bind (first : Revises change walk other)
    (second : ∀ result, Revises alter (next result) (following (change result))) :
    Revises alter (walk >>= next) (other >>= following) := by
  intro inference
  change (following (other.run inference).1).run (other.run inference).2 = _
  rw [first inference]
  exact second _ _

/-- A walk behind one that does not look at the tree. -/
theorem behind (walk : Inferrer α)
    (second : ∀ result, Revises alter (next result) (following result)) :
    Revises alter (walk >>= next) (walk >>= following) := by
  have same : Revises id walk walk := fun _ => rfl
  exact bind same second

/-- A unification that is reported at a revised expression. -/
theorem fit (left right : Ty) (typed : Expression) {next following : Bool → Inferrer β}
    (second : ∀ result, Revises alter (next result) (following result)) :
    Revises alter (unify left right typed.offset >>= next)
      (unify left right (typed.revised revision).offset >>= following) := by
  rw [Expression.offset_revised]
  exact behind _ second

/-- A choice. -/
theorem ite {condition : Prop} [Decidable condition] {declining accepting : Inferrer α}
    (positive : Revises change walk other) (negative : Revises change declining accepting) :
    Revises change (if condition then walk else declining)
      (if condition then other else accepting) := by
  split
  · exact positive
  · exact negative

/-- A walk in a scope of its own. -/
theorem inNewScope (revises : Revises change walk other) :
    Revises change (inNewScope walk) (inNewScope other) := by
  intro inference
  change (let outcome := other.run inference;
    (outcome.1, { outcome.2 with
      environment := inference.environment, undetermined := inference.undetermined })) = _
  rw [revises]
  rfl

end Revises

/-! ## Rules that read nothing of a revision -/

/-- The type of a revised parameter. -/
theorem parameterType_revised (param : Parameter) :
    parameterType (param.revised revision) = parameterType param := by
  obtain ⟨offset, name, ascription, declaration⟩ := param
  cases ascription <;> rfl

/-- Revised parameters are bound as the parameters are. -/
theorem bindParameters_revised (params : List Parameter) :
    bindParameters (params.map (·.revised revision)) = bindParameters params := by
  induction params with
  | nil => rfl
  | cons param rest inductionHypothesis =>
    rw [List.map_cons, bindParameters, bindParameters, parameterType_revised, inductionHypothesis]
    rfl

/-- A typed expression with its slots revised. -/
def revisedExpression (revision : Revision) (typed : Expression × Ty) : Expression × Ty :=
  (typed.1.revised revision, typed.2)

/-- A typed statement with its slots revised. -/
def revisedStatement (revision : Revision) (typed : Statement × Ty) : Statement × Ty :=
  (typed.1.revised revision, typed.2)

/-- The expressions among revised typed ones. -/
theorem map_fst_revisedExpression (typed : List (Expression × Ty)) :
    (typed.map (revisedExpression revision)).map (·.1) =
      Expression.revisedAll revision (typed.map (·.1)) := by
  rw [Expression.revisedAll_eq_map, List.map_map, List.map_map]
  rfl

/-- The statements among revised typed ones. -/
theorem map_fst_revisedStatement (typed : List (Statement × Ty)) :
    (typed.map (revisedStatement revision)).map (·.1) =
      Statement.revisedAll revision (typed.map (·.1)) := by
  rw [Statement.revisedAll_eq_map, List.map_map, List.map_map]
  rfl

/-- Passing revised arguments. -/
theorem passArguments_revised (params : List Ty) (arguments : List (Expression × Ty)) :
    passArguments params (arguments.map (revisedExpression revision)) =
      passArguments params arguments := by
  induction arguments generalizing params with
  | nil => rfl
  | cons argument rest inductionHypothesis =>
    cases params with
    | nil => rfl
    | cons param params =>
      obtain ⟨argument, type⟩ := argument
      rw [List.map_cons, revisedExpression, passArguments, passArguments, inductionHypothesis,
        Expression.offset_revised]

/-- The type of a call with revised arguments. -/
theorem callType_revised (callee : Ty) (arguments : List (Expression × Ty)) (offset : Int) :
    callType callee (arguments.map (revisedExpression revision)) offset =
      callType callee arguments offset := by
  have types : (arguments.map (revisedExpression revision)).map (·.2) = arguments.map (·.2) :=
    List.map_map ..
  unfold callType
  rw [types, List.length_map]
  simp only [passArguments_revised]

/-- The type of a function with a revised body. -/
theorem functionType_revised (params : List Ty) (body : List (Statement × Ty))
    (result : Option Ascription) (offset : Int) :
    functionType params (body.map (revisedStatement revision)) result offset =
      functionType params body result offset := by
  have returns : (·.1.isReturn) ∘ revisedStatement revision =
      fun typed : Statement × Ty => typed.1.isReturn :=
    funext fun typed => Statement.isReturn_revised revision typed.1
  have returned : ((body.map (revisedStatement revision)).find? (·.1.isReturn)).map (·.2) =
      (body.find? (·.1.isReturn)).map (·.2) := by
    rw [List.find?_map, Option.map_map, returns]
    rfl
  unfold functionType
  rw [returned]

/-! ## Trees -/

variable (revision)

mutual

/-- The walk over a revised expression. -/
theorem inferExpression_revised (expression : Expression) :
    Revises (revisedExpression revision.links) (inferExpression expression)
      (inferExpression (expression.revised revision)) := by
  match expression with
  | .number offset value => exact .pure (Expression.number offset value, numeralType value)
  | .string offset value => exact .pure (Expression.string offset value, Ty.primitive .string)
  | .boolean offset value => exact .pure (Expression.boolean offset value, Ty.primitive .bool)
  | .identifier identifier =>
    exact .behind _ fun type => .pure (Expression.identifier identifier, type)
  | .array offset [] =>
    exact .behind _ fun element => .pure (Expression.array offset [], Ty.array element)
  | .array offset (first :: rest) =>
    exact .bind (inferExpression_revised first) fun (first, element) =>
      .bind (inferElements_revised element rest) fun rest =>
        .pure (Expression.array offset (first :: rest), Ty.array element)
  | .member offset object index =>
    exact .bind (inferExpression_revised object) fun (object, _) =>
      .bind (inferExpression_revised index) fun (index, _) =>
        .fit _ _ index fun _ => .behind _ fun element => .fit _ _ object fun _ =>
          .pure (Expression.member offset object index, element)
  | .binary offset left operator right =>
    refine .bind (inferExpression_revised left) fun (left, leftType) =>
      .bind (inferExpression_revised right) fun (right, rightType) => .ite ?_
        (.behind _ fun _ => .behind _ fun type =>
          .pure (Expression.binary offset left operator right, type))
    change Revises _ _ (sumType leftType rightType (left.revised _).offset
      (right.revised _).offset offset operator >>= _)
    rw [Expression.offset_revised, Expression.offset_revised]
    exact .behind _ fun type => .pure (Expression.binary offset left operator right, type)
  | .conditional offset test consequent alternate =>
    exact .bind (inferExpression_revised test) fun (test, _) => .fit _ _ test fun _ =>
      .bind (inferExpression_revised consequent) fun (consequent, _) =>
        .bind (inferExpression_revised alternate) fun (alternate, _) =>
          .behind _ fun result => .fit _ _ consequent fun _ => .fit _ _ alternate fun _ =>
            .pure (Expression.conditional offset test consequent alternate, result)
  | .arrow offset params result { offset := opening, statements } =>
    refine .inNewScope ?_
    rw [bindParameters_revised]
    refine .behind _ fun types => .bind (inferStatements_revised statements) fun body => ?_
    rw [functionType_revised, map_fst_revisedStatement]
    exact .behind _ fun type =>
      .pure (Expression.arrow offset params result ⟨opening, body.map (·.1)⟩, type)
  | .call offset callee arguments =>
    refine .bind (inferExpression_revised callee) fun (callee, calleeType) =>
      .behind _ fun reached => .bind (inferArguments_revised arguments) fun arguments => ?_
    rw [callType_revised, map_fst_revisedExpression]
    exact .behind _ fun type =>
      .pure (Expression.call offset callee (arguments.map (·.1)), type)

/-- The walk over further revised elements. -/
theorem inferElements_revised (element : Ty) (expressions : List Expression) :
    Revises (Expression.revisedAll revision.links) (inferElements element expressions)
      (inferElements element (Expression.revisedAll revision expressions)) := by
  match expressions with
  | [] => exact .pure []
  | expression :: rest =>
    exact .bind (inferExpression_revised expression) fun (expression, _) =>
      .fit _ _ expression fun _ => .bind (inferElements_revised element rest) fun rest =>
        .pure (expression :: rest)

/-- The walk over revised arguments. -/
theorem inferArguments_revised (expressions : List Expression) :
    Revises (List.map (revisedExpression revision.links)) (inferArguments expressions)
      (inferArguments (Expression.revisedAll revision expressions)) := by
  match expressions with
  | [] => exact .pure []
  | expression :: rest =>
    exact .bind (inferExpression_revised expression) fun inferred =>
      .bind (inferArguments_revised rest) fun rest => .pure (inferred :: rest)

/-- The walk over a revised statement. -/
theorem inferStatement_revised (statement : Statement) :
    Revises (revisedStatement revision.links) (inferStatement statement)
      (inferStatement (statement.revised revision)) := by
  match statement with
  | .constant offset id none initial _ =>
    exact .bind (inferExpression_revised initial) fun (initial, type) =>
      .behind _ fun type => .behind _ fun _ =>
        .pure (Statement.constant offset id none initial (some type), type)
  | .constant offset id (some ascription) initial _ =>
    exact .bind (inferExpression_revised initial) fun (initial, _) =>
      .behind _ fun type => .fit _ _ initial fun _ => .behind _ fun type => .behind _ fun _ =>
        .pure (Statement.constant offset id (some ascription) initial (some type), type)
  | .returning offset none _ =>
    exact .pure (Statement.returning offset none (some (.primitive .void)), Ty.primitive .void)
  | .returning offset (some argument) _ =>
    exact .bind (inferExpression_revised argument) fun (argument, type) =>
      .pure (Statement.returning offset (some argument) (some type), type)

/-- The walk over several revised statements. -/
theorem inferStatements_revised (statements : List Statement) :
    Revises (List.map (revisedStatement revision.links)) (inferStatements statements)
      (inferStatements (Statement.revisedAll revision statements)) := by
  match statements with
  | [] => exact .pure []
  | statement :: rest =>
    exact .bind (inferStatement_revised statement) fun inferred =>
      .bind (inferStatements_revised rest) fun rest => .pure (inferred :: rest)

end

end Inferrer

/-! ## Linked trees -/

section Links

variable (number : Site → Nat)

/-- A link is removed from an identifier. -/
theorem Identifier.bare_linkedTo (id : Identifier) (link : Option Link) :
    (id.linkedTo link).revised .bare = id.revised .bare := by
  cases link <;> rfl

/-- Links are removed from parameters. -/
theorem Parameter.bare_linked (start : Nat) (level : Level) (params : List Parameter) :
    (Parameter.linked number start level params).map (·.revised .bare) =
      params.map (·.revised .bare) := by
  induction params generalizing start level with
  | nil => rfl
  | cons param rest inductionHypothesis =>
    have here (link : Option Link) : (param.linkedTo link).revised .bare = param.revised .bare := by
      cases link <;> rfl
    rw [Parameter.linked, List.map_cons, List.map_cons, here, inductionHypothesis]

mutual

/-- Links are removed from an expression. -/
theorem Expression.bare_linked (start : Nat) (levels : List Level) (expression : Expression) :
    (expression.linked number start levels).revised .bare = expression.revised .bare := by
  match expression with
  | .number _ _ | .string _ _ | .boolean _ _ => rfl
  | .identifier use => exact congrArg Expression.identifier (Identifier.bare_linkedTo use _)
  | .array offset elements =>
    exact congrArg (Expression.array offset) (Expression.bare_linkedAll start levels elements)
  | .member offset object index =>
    exact congrArg₂ (Expression.member offset) (Expression.bare_linked start levels object)
      (Expression.bare_linked _ levels index)
  | .binary offset left operator right =>
    exact congrArg₂ (Expression.binary offset · operator ·)
      (Expression.bare_linked start levels left) (Expression.bare_linked _ levels right)
  | .conditional offset test consequent alternate =>
    simp only [Expression.linked, Expression.revised, Expression.bare_linked _ levels test,
      Expression.bare_linked _ levels consequent, Expression.bare_linked _ levels alternate]
  | .arrow offset params result { offset := opening, statements } =>
    exact congrArg₂ (fun params statements =>
        Expression.arrow offset params result ⟨opening, statements⟩)
      (Parameter.bare_linked number start [] params)
      (Statement.bare_linkedAll _ _ levels statements)
  | .call offset callee arguments =>
    exact congrArg₂ (Expression.call offset) (Expression.bare_linked start levels callee)
      (Expression.bare_linkedAll _ levels arguments)

/-- Links are removed from several expressions. -/
theorem Expression.bare_linkedAll (start : Nat) (levels : List Level)
    (expressions : List Expression) :
    Expression.revisedAll .bare (Expression.linkedAll number start levels expressions) =
      Expression.revisedAll .bare expressions := by
  match expressions with
  | [] => rfl
  | expression :: rest =>
    exact congrArg₂ List.cons (Expression.bare_linked start levels expression)
      (Expression.bare_linkedAll _ levels rest)

/-- Links are removed from a statement. -/
theorem Statement.bare_linked (start : Nat) (level : Level) (outer : List Level)
    (statement : Statement) :
    (statement.linked number start level outer).revised .bare = statement.revised .bare := by
  match statement with
  | .constant offset id ascription initial inferred =>
    exact congrArg₂ (Statement.constant offset · ascription · none)
      (Identifier.bare_linkedTo id _) (Expression.bare_linked start (level :: outer) initial)
  | .returning _ none _ => rfl
  | .returning offset (some argument) _ =>
    exact congrArg (fun argument => Statement.returning offset (some argument) none)
      (Expression.bare_linked start (level :: outer) argument)

/-- Links are removed from several statements. -/
theorem Statement.bare_linkedAll (start : Nat) (level : Level) (outer : List Level)
    (statements : List Statement) :
    Statement.revisedAll .bare (Statement.linkedAll number start level outer statements) =
      Statement.revisedAll .bare statements := by
  match statements with
  | [] => rfl
  | statement :: rest =>
    exact congrArg₂ List.cons (Statement.bare_linked start level outer statement)
      (Statement.bare_linkedAll _ _ outer rest)

end

end Links

/-! ## Programs -/

namespace Program

/-- The printed types of the statements of a program, in the order of the source. -/
def printedTypes (program : Program) : List (Option String) :=
  program.statements.map fun entry => entry.2.inferred.map Ty.text

/-- A tree of a program that analyses have been run on, in any order and any number of
times. An analysis that is stopped behind the validation is a validation alone, which leaves
the tree as it is. -/
inductive Prepared (program : Program) : Program → Prop
  | untouched : Prepared program program
  | resolved {earlier : Program} (prepared : Prepared program earlier) :
    Prepared program earlier.resolve.program
  | inferred {earlier : Program} (prepared : Prepared program earlier) :
    Prepared program earlier.infer.1
  | analysed {earlier : Program} (prepared : Prepared program earlier) (stop : Option Stage)
    (check : Check) {analysis : Analysis} (ran : earlier.analyse stop check = .ok analysis) :
    Prepared program analysis.program

/-- The tree that inference leaves has the statements of the walk, with what their types are
resolved to. -/
theorem infer_body (program : Program) :
    program.infer.1.body = Statement.revisedAll
      (.types ((Inferrer.inferStatements program.body).run {}).2.store.resolve)
      (((Inferrer.inferStatements program.body).run {}).1.map (·.1)) :=
  Statement.mapTypesAll_eq_revised _ _

/-- Inference of a revised program finds the same, up to the revision of the links. -/
theorem infer_revised (revision : Revision) (program : Program) :
    (program.revised revision).infer =
      (program.infer.1.revised revision.links, program.infer.2) := by
  have walked : (Inferrer.inferStatements (program.revised revision).body).run {} = _ :=
    Inferrer.inferStatements_revised revision program.body {}
  have diagnostics : (program.revised revision).infer.2 = program.infer.2 :=
    congrArg (·.2.diagnostics) walked
  have body : (program.revised revision).infer.1.body =
      Statement.revisedAll revision.links program.infer.1.body := by
    -- the links and the types are in different slots, so the two revisions change places
    rw [infer_body, infer_body, walked, Inferrer.map_fst_revisedStatement,
      Statement.revisedAll_revisedAll, Statement.revisedAll_revisedAll]
    rfl
  exact Prod.ext (congrArg (Program.mk program.offset) body) diagnostics

/-- Inference changes only types. -/
theorem infer_untyped (program : Program) :
    program.infer.1.revised .untyped = program.revised .untyped := by
  have same := (Inferrer.inferStatements_typed program.body {}).1
  refine congrArg (Program.mk program.offset) ?_
  rw [infer_body, Statement.revisedAll_revisedAll]
  exact same

/-- Inference leaves no statement without a type. -/
theorem infer_typed (program : Program) : Typed program.infer.1.statements := by
  have typed := (Inferrer.inferStatements_typed program.body {}).2 0
  rw [statements, infer_body, Statement.listed_revised]
  intro entry member
  obtain ⟨earlier, isEarlier, rfl⟩ := List.mem_map.mp member
  rw [Revision.entry, Statement.inferred_revised]
  exact (Option.isSome_map ..).trans (typed earlier isEarlier)

/-- Removing links leaves of a resolved program what it leaves of the program. -/
theorem bare_resolve (program : Program) :
    program.resolve.program.revised .bare = program.revised .bare := by
  rw [resolve_eq]
  exact congrArg (Program.mk program.offset)
    (Statement.bare_linkedAll program.number 0 [] [] program.body)

/-- What is left of an inferred program without types is left of the program. -/
theorem bare_infer (program : Program) :
    program.infer.1.revised .bare = program.revised .bare := by
  have both (other : Program) : other.revised .bare = (other.revised .untyped).revised .bare := by
    rw [revised_revised]
    rfl
  rw [both, infer_untyped, ← both]

/-- An analysis leaves the program as it is, resolved, or resolved and inferred. -/
theorem analyse_program {program : Program} {stop : Option Stage} {check : Check}
    {analysis : Analysis} (ran : program.analyse stop check = .ok analysis) :
    analysis.program = program ∨ analysis.program = program.resolve.program ∨
      analysis.program = program.resolve.program.infer.1 := by
  unfold analyse at ran
  cases found : check program with
  | error failure =>
    rw [found] at ran
    exact nomatch ran
  | ok problems =>
    rw [found] at ran
    change (if _ then _ else if _ then _ else _) = _ at ran
    split at ran
    · exact .inl (congrArg Analysis.program (Except.ok.inj ran)).symm
    · split at ran
      · exact .inr (.inl (congrArg Analysis.program (Except.ok.inj ran)).symm)
      · exact .inr (.inr (congrArg Analysis.program (Except.ok.inj ran)).symm)

/-- Without its slots, a tree that analyses have been run on is the program. -/
theorem Prepared.bare_eq {program earlier : Program} (prepared : program.Prepared earlier) :
    earlier.revised .bare = program.revised .bare := by
  induction prepared with
  | untouched => rfl
  | @resolved earlier _ inductionHypothesis => rw [bare_resolve, inductionHypothesis]
  | @inferred earlier _ inductionHypothesis => rw [bare_infer, inductionHypothesis]
  | @analysed earlier _ stop check analysis ran inductionHypothesis =>
    rw [← inductionHypothesis]
    obtain same | same | same := analyse_program ran
    · rw [same]
    · rw [same, bare_resolve]
    · rw [same, bare_infer, bare_resolve]

/-- Links have nothing to do with the printed types. -/
theorem printedTypes_revised (revision : Revision) (program : Program) :
    (program.revised revision.links).printedTypes = program.printedTypes := by
  rw [printedTypes, statements, revised, Statement.listed_revised, List.map_map]
  refine List.map_congr_left fun entry _ => ?_
  rw [Function.comp_apply, Revision.entry, Statement.inferred_revised]
  rfl

/-- Inference finds in a tree that analyses have been run on what it finds in the program. -/
theorem Prepared.infer_eq {program earlier : Program} (prepared : program.Prepared earlier) :
    earlier.infer.1.revised .unlinked = program.infer.1.revised .unlinked ∧
      earlier.infer.2 = program.infer.2 := by
  have same : (earlier.revised .bare).infer = (program.revised .bare).infer :=
    congrArg infer prepared.bare_eq
  rw [infer_revised, infer_revised] at same
  exact Prod.mk.inj same

/-- Inference changes nothing of a program but the types of its statements, and it gives
one to each of them. It visits each statement once, in the order of the source. Run on what
any analyses of the program have left, it prints the same types and reports the same. -/
theorem infer_covers (program : Program) :
    program.infer.1.revised .untyped = program.revised .untyped ∧
      (∀ entry ∈ program.infer.1.statements, entry.2.inferred.isSome) ∧
      ((Recorder.recordStatements program.body).run []).run {} =
        ((((Inferrer.inferStatements program.body).run {}).1, program.statements.map (·.2)),
          ((Inferrer.inferStatements program.body).run {}).2) ∧
      ∀ earlier : Program, program.Prepared earlier →
        earlier.infer.1.printedTypes = program.infer.1.printedTypes ∧
          earlier.infer.2 = program.infer.2 := by
  refine ⟨infer_untyped program, infer_typed program, ?_, fun earlier prepared => ⟨?_, ?_⟩⟩
  · exact Recorder.recordStatements_records 0 program.body [] {}
  · calc earlier.infer.1.printedTypes
        = (earlier.infer.1.revised .unlinked).printedTypes :=
          (printedTypes_revised .bare _).symm
      _ = (program.infer.1.revised .unlinked).printedTypes :=
          congrArg printedTypes prepared.infer_eq.1
      _ = program.infer.1.printedTypes := printedTypes_revised .bare _
  · exact prepared.infer_eq.2

/-- The program `const f = (x) => { return x; }; const g = f(1, (y) => { const z = [y]; });`.
The call has an argument too many. -/
def mismatchedCall : Program where
  body :=
    [.constant 0 ⟨6, "f", none⟩ none
      (.arrow 10 [⟨11, "x", none, none⟩] none
        ⟨17, [.returning 19 (some (.identifier ⟨26, "x", none⟩)) none]⟩) none,
     .constant 32 ⟨38, "g", none⟩ none
      (.call 42 (.identifier ⟨42, "f", none⟩)
        [.number 44 (.int 1),
         .arrow 47 [⟨48, "y", none, none⟩] none
          ⟨54, [.constant 56 ⟨62, "z", none⟩ none
            (.array 66 [.identifier ⟨67, "y", none⟩]) none]⟩]) none]

/-- The constant in the argument that is too many has a type, the first time and after all
analyses have been run twice. -/
theorem infer_covers_mismatched :
    mismatchedCall.infer.1.printedTypes =
        [some "(t0) -> t0", some "t0", some "t3", some "Array<t2>"] ∧
      mismatchedCall.resolve.program.infer.1.infer.1.printedTypes =
        mismatchedCall.infer.1.printedTypes ∧
      mismatchedCall.resolve.program.infer.1.infer.2 = [⟨.arityMismatch 1 2, 42⟩] := by
  have prepared : mismatchedCall.Prepared mismatchedCall.resolve.program.infer.1 :=
    .inferred (.resolved .untouched)
  obtain ⟨-, -, -, repeated⟩ := infer_covers mismatchedCall
  obtain ⟨printed, reported⟩ := repeated _ prepared
  have found : mismatchedCall.infer.2 = [⟨.arityMismatch 1 2, 42⟩] := by decide +kernel
  exact ⟨by decide +kernel, printed, reported.trans found⟩

end Program

end ArrowScript
