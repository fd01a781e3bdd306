import ArrowScript.Compilation
import ArrowScript.Proofs.Relocation.Trees
import ArrowScript.Proofs.Scope.Propriety

/-!
# Analyses of relocated trees

The analyses of a tree look at its names and its values and copy its offsets. What they
find in a relocated tree is what they find in the tree, relocated.

The name resolution and the inference are walks that change a state. `Relocates` says of
two such walks that the second one does on relocated data what the first one does on the
data: its result is relocated, and so is the state that it leaves.
-/

namespace ArrowScript

variable {move : Int → Int}

/-! ## Validation -/

/-- The misplaced returns of a relocated body. -/
theorem earlyReturns_relocate (body : List Statement) :
    earlyReturns (relocate move body) = relocate move (earlyReturns body) := by
  change ((body.map (relocate move)).dropLast.filter _).map _ =
    ((body.dropLast.filter _).map _).map (relocate move)
  rw [← List.map_dropLast, List.filter_map, List.map_map, List.map_map]
  have returns : Statement.isReturn ∘ relocate move = Statement.isReturn :=
    funext (Statement.isReturn_relocate move)
  rw [returns]
  refine List.map_congr_left fun statement _ => ?_
  rw [Function.comp_apply, Statement.offset_relocate]
  rfl

mutual

/-- The misplaced returns in a relocated expression. -/
theorem Expression.validate_relocate (expression : Expression) :
    (relocate move expression).validate = relocate move expression.validate := by
  match expression with
  | .number _ _ | .string _ _ | .boolean _ _ | .identifier _ => rfl
  | .array _ elements => exact Expression.validateAll_relocate elements
  | .member _ object index =>
    change (relocate move object).validate ++ (relocate move index).validate =
      relocate move (object.validate ++ index.validate)
    rw [Expression.validate_relocate object, Expression.validate_relocate index, relocate_append]
  | .binary _ left _ right =>
    change (relocate move left).validate ++ (relocate move right).validate =
      relocate move (left.validate ++ right.validate)
    rw [Expression.validate_relocate left, Expression.validate_relocate right, relocate_append]
  | .conditional _ test consequent alternate =>
    change (relocate move test).validate ++ (relocate move consequent).validate ++
        (relocate move alternate).validate =
      relocate move (test.validate ++ consequent.validate ++ alternate.validate)
    rw [Expression.validate_relocate test, Expression.validate_relocate consequent,
      Expression.validate_relocate alternate, relocate_append, relocate_append]
  | .arrow _ _ _ { statements, .. } =>
    change earlyReturns (Statement.relocatedAll move statements) ++
        Statement.validateAll (Statement.relocatedAll move statements) =
      relocate move (earlyReturns statements ++ Statement.validateAll statements)
    rw [relocate_append, Statement.validateAll_relocate statements, Statement.relocatedAll_eq,
      earlyReturns_relocate]
  | .call _ callee arguments =>
    change (relocate move callee).validate ++
        Expression.validateAll (Expression.relocatedAll move arguments) =
      relocate move (callee.validate ++ Expression.validateAll arguments)
    rw [Expression.validate_relocate callee, Expression.validateAll_relocate arguments,
      relocate_append]

/-- The misplaced returns in several relocated expressions. -/
theorem Expression.validateAll_relocate (expressions : List Expression) :
    Expression.validateAll (Expression.relocatedAll move expressions) =
      relocate move (Expression.validateAll expressions) := by
  match expressions with
  | [] => rfl
  | expression :: rest =>
    change (relocate move expression).validate ++ _ = relocate move (expression.validate ++ _)
    rw [Expression.validate_relocate expression, Expression.validateAll_relocate rest,
      relocate_append]

/-- The misplaced returns in a relocated statement. -/
theorem Statement.validate_relocate (statement : Statement) :
    (relocate move statement).validate = relocate move statement.validate := by
  match statement with
  | .constant _ _ _ initial _ => exact Expression.validate_relocate initial
  | .returning _ (some argument) _ => exact Expression.validate_relocate argument
  | .returning _ none _ => rfl

/-- The misplaced returns in several relocated statements. -/
theorem Statement.validateAll_relocate (statements : List Statement) :
    Statement.validateAll (Statement.relocatedAll move statements) =
      relocate move (Statement.validateAll statements) := by
  match statements with
  | [] => rfl
  | statement :: rest =>
    change (relocate move statement).validate ++ _ = relocate move (statement.validate ++ _)
    rw [Statement.validate_relocate statement, Statement.validateAll_relocate rest,
      relocate_append]

end

/-- The misplaced returns of a relocated program. -/
theorem Program.validate_relocate (move : Int → Int) (program : Program) :
    (relocate move program).validate = relocate move program.validate := by
  change Statement.validateAll (relocate move program.body) = _
  rw [← Statement.relocatedAll_eq]
  exact Statement.validateAll_relocate program.body

/-! ## Walks -/

/-- The other walk does on relocated data what the one does on the data. -/
def Relocates {σ α : Type} [Located σ] [Located α] (move : Int → Int) (one other : StateM σ α) :
    Prop :=
  ∀ state, other.run (relocate move state) = relocate (α := α × σ) move (one.run state)

namespace Relocates

variable {σ α β : Type} [Located σ] [Located α] [Located β] {one other : StateM σ α}
  {next following : α → StateM σ β}

/-- A result. -/
theorem pure (result : α) :
    Relocates (σ := σ) move (pure result) (pure (relocate move result)) := fun _ => rfl

/-- Two walks, one after the other. -/
theorem bind (first : Relocates move one other)
    (second : ∀ result, Relocates move (next result) (following (relocate move result))) :
    Relocates move (one >>= next) (other >>= following) := by
  intro state
  change (following (other.run (relocate move state)).1).run
    (other.run (relocate move state)).2 = _
  rw [first state]
  exact second (one.run state).1 (one.run state).2

/-- A choice. -/
theorem ite {condition : Prop} [Decidable condition] {declining accepting : StateM σ α}
    (positives : Relocates move one other) (negatives : Relocates move declining accepting) :
    Relocates move (if condition then one else declining)
      (if condition then other else accepting) := by
  split
  · exact positives
  · exact negatives

/-- A look at the state. -/
theorem get : Relocates (σ := σ) move get get := fun _ => rfl

end Relocates

/-! ## Name resolution -/

instance : Located Declaration where
  relocate move declaration :=
    { link := relocate move declaration.link, references := declaration.references.map move }

instance : Located Resolution where
  relocate move resolution :=
    { resolution with
      declarations := resolution.declarations.map (relocate move)
      diagnostics := relocate move resolution.diagnostics }

namespace Resolver

/-- Reporting a problem. -/
theorem report_relocates (problem : Problem) (offset : Int) :
    Relocates move (report problem offset) (report problem (move offset)) := by
  intro resolution
  exact congrArg (fun diagnostics => ((), { relocate move resolution with diagnostics }))
    (relocate_append move resolution.diagnostics [⟨problem, offset⟩]).symm

/-- Declaring a name. -/
theorem declare_relocates (name : String) (kind : DeclarationKind) (offset : Int) :
    Relocates move (declare name kind offset) (declare name kind (move offset)) := by
  intro resolution
  rw [declare_eq, declare_eq]
  change (if (resolution.names.lookup name).isSome then _ else _) = _
  split
  · rfl
  · have size : (relocate move resolution).declarations.size = resolution.declarations.size :=
      Array.size_map
    let link : Link := { number := resolution.declarations.size, name, kind, offset }
    have pushed : (relocate move resolution).declarations.push { link := relocate move link } =
        (resolution.declarations.push { link }).map (relocate move) := by
      rw [Array.map_push]
      rfl
    simp only [size]
    exact congrArg (fun declarations => (some (relocate move link),
      { relocate move resolution with
        names := resolution.names ++ [(name, link.number)], declarations })) pushed

/-- Recording a use. -/
theorem refer_relocates (number : Nat) (offset : Int) :
    Relocates move (refer number offset) (refer number (move offset)) := by
  intro resolution
  have modified : (relocate move resolution).declarations.modify number
        (fun declaration =>
          { declaration with references := declaration.references ++ [move offset] }) =
      (resolution.declarations.modify number fun declaration =>
        { declaration with references := declaration.references ++ [offset] }).map
          (relocate move) := by
    refine Array.ext_getElem? fun place => ?_
    change ((resolution.declarations.map _).modify number _)[place]? = _
    rw [Array.getElem?_modify, Array.getElem?_map, Array.getElem?_map, Array.getElem?_modify]
    split
    · cases resolution.declarations[place]? with
      | none => rfl
      | some declaration =>
        refine congrArg some ?_
        change Declaration.mk _ (declaration.references.map move ++ [move offset]) = _
        rw [← List.map_singleton, ← List.map_append]
        rfl
    · rfl
  exact congrArg (fun declarations => ((), { relocate move resolution with declarations })) modified

/-- Looking up a name. -/
theorem lookup_relocates (name : String) : Relocates move (lookup name) (lookup name) := by
  intro resolution
  let found : Option Nat := (resolution.names :: resolution.enclosing).findSome? (·.lookup name)
  exact congrArg (·, relocate move resolution) (Option.map_id'.symm : found = _)

/-- A use of a name. -/
theorem resolveIdentifier_relocates (identifier : Identifier) :
    Relocates move (resolveIdentifier identifier)
      (resolveIdentifier (relocate move identifier)) := by
  refine .bind (lookup_relocates identifier.name) fun found => ?_
  cases found with
  | none => exact .bind (report_relocates _ _) fun _ => .pure identifier
  | some number =>
    refine .bind (refer_relocates _ _) fun _ => .bind (α := Resolution) .get fun resolution => ?_
    have moved : (relocate move resolution).declarations[relocate move number]? =
        resolution.declarations[number]?.map (relocate move) := Array.getElem?_map
    rw [moved]
    cases resolution.declarations[number]? with
    | none => exact .pure identifier
    | some declaration =>
      exact .pure (α := Identifier) { identifier with declaration := some declaration.link }

/-- The parameters of a function. -/
theorem declareParameters_relocates (params : List Parameter) :
    Relocates move (declareParameters params) (declareParameters (relocate move params)) := by
  induction params with
  | nil => exact .pure _
  | cons param rest inductionHypothesis =>
    obtain ⟨offset, name, ascription, declaration⟩ := param
    have further (declared : Parameter) :
        Relocates (α := List Parameter) move (do return declared :: (← declareParameters rest))
          (do return relocate move declared :: (← declareParameters (relocate move rest))) :=
      .bind inductionHypothesis fun others => .pure (declared :: others)
    cases ascription with
    | none =>
      refine .bind (declare_relocates name .parameter offset) fun given => ?_
      cases given with
      | none => exact .bind (report_relocates _ _) fun _ => further _
      | some link => exact further _
    | some ascription =>
      refine .bind (declare_relocates name .parameter offset) fun given => ?_
      cases given with
      | none => exact .bind (report_relocates _ _) fun _ => further _
      | some link => exact further _

/-- A scope of its own. -/
theorem inNewScope_relocates {α : Type} [Located α] (owner : NodeKind) {one other : Resolver α}
    (relocates : Relocates move one other) :
    Relocates move (inNewScope owner one) (inNewScope owner other) := by
  refine .bind .get fun outer => .bind (fun _ => rfl) fun _ => .bind relocates fun result =>
    .bind .get fun inner => .bind (fun _ => rfl) fun _ => .pure result

mutual

/-- Resolving the names in a relocated expression. -/
theorem resolveExpression_relocates (expression : Expression) :
    Relocates move (resolveExpression expression)
      (resolveExpression (relocate move expression)) := by
  match expression with
  | .number offset value => exact .pure (Expression.number offset value)
  | .string offset value => exact .pure (Expression.string offset value)
  | .boolean offset value => exact .pure (Expression.boolean offset value)
  | .identifier identifier =>
    exact .bind (resolveIdentifier_relocates identifier) fun linked =>
      .pure (Expression.identifier linked)
  | .array offset elements =>
    refine .bind (resolveExpressions_relocates elements) fun linked => ?_
    rw [← Expression.relocatedAll_eq]
    exact .pure (Expression.array offset linked)
  | .member offset object index =>
    exact .bind (resolveExpression_relocates object) fun object =>
      .bind (resolveExpression_relocates index) fun index =>
        .pure (Expression.member offset object index)
  | .binary offset left operator right =>
    exact .bind (resolveExpression_relocates left) fun left =>
      .bind (resolveExpression_relocates right) fun right =>
        .pure (Expression.binary offset left operator right)
  | .conditional offset test consequent alternate =>
    exact .bind (resolveExpression_relocates test) fun test =>
      .bind (resolveExpression_relocates consequent) fun consequent =>
        .bind (resolveExpression_relocates alternate) fun alternate =>
          .pure (Expression.conditional offset test consequent alternate)
  | .arrow offset params result { offset := opening, statements } =>
    refine inNewScope_relocates .arrow (.bind (declareParameters_relocates params) fun params =>
      .bind (resolveBlock_relocates opening statements) fun body => ?_)
    obtain ⟨opening, statements⟩ := body
    have same : relocate move (Expression.arrow offset params result ⟨opening, statements⟩) =
        .arrow (move offset) (relocate move params) (relocate move result)
          ⟨move opening, relocate move statements⟩ := by
      rw [← Statement.relocatedAll_eq]
      rfl
    exact same ▸ .pure _
  | .call offset callee arguments =>
    refine .bind (resolveExpression_relocates callee) fun callee =>
      .bind (resolveExpressions_relocates arguments) fun linked => ?_
    rw [← Expression.relocatedAll_eq]
    exact .pure (Expression.call offset callee linked)

/-- Resolving the names in a relocated statement. -/
theorem resolveStatement_relocates (statement : Statement) :
    Relocates move (resolveStatement statement) (resolveStatement (relocate move statement)) := by
  match statement with
  | .constant offset id ascription initial inferred =>
    refine .bind (resolveExpression_relocates initial) fun initial =>
      .bind (declare_relocates id.name .constant offset) fun given => ?_
    cases given with
    | none =>
      exact .bind (report_relocates _ _) fun _ =>
        .pure (Statement.constant offset id ascription initial inferred)
    | some link =>
      exact .pure (Statement.constant offset { id with declaration := some link } ascription initial
        inferred)
  | .returning offset none inferred => exact .pure (Statement.returning offset none inferred)
  | .returning offset (some argument) inferred =>
    exact .bind (resolveExpression_relocates argument) fun argument =>
      .pure (Statement.returning offset (some argument) inferred)

/-- Resolving the names in a relocated block. -/
theorem resolveBlock_relocates (opening : Int) (statements : List Statement) :
    Relocates move (resolveBlock { offset := opening, statements })
      (resolveBlock
        { offset := move opening, statements := Statement.relocatedAll move statements }) := by
  exact .bind (resolveStatements_relocates statements) fun statements =>
    .pure (Block.mk opening statements)

/-- Resolving the names in several relocated expressions. -/
theorem resolveExpressions_relocates (expressions : List Expression) :
    Relocates move (resolveExpressions expressions)
      (resolveExpressions (Expression.relocatedAll move expressions)) := by
  match expressions with
  | [] => exact .pure _
  | expression :: rest =>
    exact .bind (resolveExpression_relocates expression) fun _ =>
      .bind (resolveExpressions_relocates rest) fun _ => .pure _

/-- Resolving the names in several relocated statements. -/
theorem resolveStatements_relocates (statements : List Statement) :
    Relocates move (resolveStatements statements)
      (resolveStatements (Statement.relocatedAll move statements)) := by
  match statements with
  | [] => exact .pure _
  | statement :: rest =>
    exact .bind (resolveStatement_relocates statement) fun _ =>
      .bind (resolveStatements_relocates rest) fun _ => .pure _

end

end Resolver

/-- Resolving the names of a relocated program. -/
theorem Program.resolve_relocate (move : Int → Int) (program : Program) :
    (relocate move program).resolve.program = relocate move program.resolve.program ∧
      (relocate move program).resolve.diagnostics = relocate move program.resolve.diagnostics := by
  have walked : (Resolver.resolveStatements (relocate move program.body)).run {} =
      relocate (α := List Statement × Resolution) move
        ((Resolver.resolveStatements program.body).run {}) := by
    have start : relocate move ({} : Resolution) = {} :=
      congrArg (fun declarations => ({ declarations } : Resolution)) Array.map_empty
    rw [← Statement.relocatedAll_eq, ← Resolver.resolveStatements_relocates, start]
  constructor
  · exact congrArg (fun outcome => Program.mk program.offset outcome.1) walked
  · exact congrArg (fun outcome => outcome.2.diagnostics) walked

end ArrowScript
