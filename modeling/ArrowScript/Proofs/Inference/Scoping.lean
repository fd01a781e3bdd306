import ArrowScript.Proofs.Inference.Drafts

/-!
# The discipline of scopes

A walk over a function binds names and adds the types of parameters, at any depth and at any
place of an expression, and it may be broken off inside several functions at once. Behind
an expression the scopes are as they were before it all the same. A constant declaration
that is finished has bound its own name in the scope in use and nothing else, and one that
is broken off has bound nothing.
-/

namespace ArrowScript

open LayeredInferrer

namespace Inferrer

/-- The walk over a function, with its result ascribed. -/
theorem inferExpression_function (offset opening : Int) (params : List Parameter)
    (result : Option Ascription) (statements : List Statement) :
    inferExpression (.arrow offset params result { offset := opening, statements }) =
      inNewScope do
        let types ← bindParameters params
        let body ← inferStatements statements
        let type ← ascribe (returnedType body) result offset
        return (.arrow offset params result { offset := opening, statements := body.map (·.1) },
          .function types type) := by
  cases result <;> rfl

/-- Infers the value of a constant, and gives it its ascription. -/
def inferValue (initial : Expression) (ascription : Option Ascription) :
    Inferrer (Expression × Ty) := do
  let (initial, type) ← inferExpression initial
  let type ← ascribe type ascription initial.offset
  return (initial, type)

/-- The walk over a constant declaration binds the name behind that over the value. -/
theorem inferStatement_value (offset : Int) (identifier : Identifier)
    (ascription : Option Ascription) (initial : Expression) (earlier : Option Ty) :
    inferStatement (.constant offset identifier ascription initial earlier) = do
      let (initial, type) ← inferValue initial ascription
      bind identifier.name type
      return (.constant offset identifier ascription initial (some type), type) := by
  cases ascription <;> rfl

end Inferrer

namespace Draft

/-! ## What the walk over a draft keeps -/

mutual

/-- The walk over an ascription keeps the layers. -/
theorem Ascription.infer_keeps (written : Ascription) : Keeps id written.faults written.infer := by
  match written with
  | .named _ name =>
    rw [Ascription.infer]
    split
    · exact .pure _
    · exact .behind (.step _) fun _ => .pure _
  | .array _ element => exact .before element.infer_keeps fun _ => .pure _
  | .function _ params result =>
    exact .bind (Parameter.inferAll_keeps params) fun _ =>
      .before result.infer_keeps fun _ => .pure _
  | .stray stray => exact .throw stray.failure

/-- So does the walk over a parameter. -/
theorem Parameter.infer_keeps (param : Parameter) : Keeps id param.faults param.infer := by
  match param with
  | { ascription := some ascription, .. } => exact .before ascription.infer_keeps fun _ => .pure _
  | { ascription := none, .. } => exact .behind (.step _) fun _ => .pure _

/-- So does the walk over several parameters. -/
theorem Parameter.inferAll_keeps (params : List Parameter) :
    Keeps id (Parameter.faultsOf params) (Parameter.inferAll params) := by
  match params with
  | [] => exact .pure _
  | param :: rest =>
    exact .bind param.infer_keeps fun _ => .before (Parameter.inferAll_keeps rest) fun _ => .pure _

end

/-- Parameters are bound in the layer in use. -/
theorem Parameter.bindAll_keeps (params : List Parameter) :
    Keeps Layers.outer (Parameter.faultsOf params) (Parameter.bindAll params) := by
  induction params with
  | nil => exact .pure _
  | cons param rest inductionHypothesis =>
    exact .bind (.of_all param.infer_keeps) fun _ => .behind (.rearrange fun _ => rfl) fun _ =>
      .behind (.rearrange fun _ => rfl) fun _ => .before inductionHypothesis fun _ => .pure _

/-- Giving a type its ascription keeps the layers. -/
theorem Ascription.ascribe_keeps (type : Ty) (offset : Int) (ascription : Option Ascription) :
    Keeps id (Ascription.faultsOf ascription) (Ascription.ascribe type offset ascription) := by
  cases ascription with
  | none => exact .pure _
  | some written =>
    exact .before written.infer_keeps fun _ => .behind (.step _) fun _ => .pure _

/-- The value of a constant is inferred and ascribed before anything is bound. -/
theorem Ascription.inferValue_keeps {value : LayeredInferrer (ArrowScript.Expression × Ty)}
    {faults : List InternalError} (keeps : Keeps id faults value)
    (ascription : Option Ascription) :
    Keeps id (faults ++ Ascription.faultsOf ascription) (Ascription.inferValue value ascription) :=
  .bind keeps fun _ => .before (Ascription.ascribe_keeps _ _ ascription) fun _ => .pure _

/-- A function keeps the layers around its own when its body does. -/
theorem Expression.inferFunction_keeps (offset : Int) (params : List Parameter)
    (result : Option Ascription) (opening : Int)
    {body : LayeredInferrer (List (ArrowScript.Statement × Ty))} {faults : List InternalError}
    (keeps : Keeps Layers.outer faults body) :
    Keeps Layers.outer (Parameter.faultsOf params ++ (faults ++ Ascription.faultsOf result))
      (Expression.inferFunction offset params result opening body) :=
  .bind (Parameter.bindAll_keeps params) fun _ => .bind keeps fun _ =>
    .before (.of_all (Ascription.ascribe_keeps _ _ result)) fun _ => .pure _

mutual

/-- The walk over an expression keeps the layers, since a function takes its own layer off. -/
theorem Expression.infer_keeps (root : Expression) : Keeps id root.faults root.infer := by
  match root with
  | .number _ _ | .string _ _ | .boolean _ _ => exact .pure _
  | .identifier _ => exact .behind (.step _) fun _ => .pure _
  | .array _ [] => exact .behind (.step _) fun _ => .pure _
  | .array _ (first :: rest) =>
    exact .bind first.infer_keeps fun (_, element) =>
      .before (Expression.inferElements_keeps element rest) fun _ => .pure _
  | .member _ object index =>
    exact .bind object.infer_keeps fun _ => .before index.infer_keeps fun _ =>
      .behind (.step _) fun _ => .behind (.step _) fun _ => .behind (.step _) fun _ => .pure _
  | .binary _ left operator right =>
    exact .bind left.infer_keeps fun _ => .before right.infer_keeps fun _ =>
      .ite (.behind (.step _) fun _ => .pure _)
        (.behind (.step _) fun _ => .behind (.step _) fun _ => .pure _)
  | .conditional _ test consequent alternate =>
    exact .bind test.infer_keeps fun _ => .behind (.step _) fun _ =>
      .bind consequent.infer_keeps fun _ => .before alternate.infer_keeps fun _ =>
        .behind (.step _) fun _ => .behind (.step _) fun _ => .behind (.step _) fun _ => .pure _
  | .arrow _ params result _ statements =>
    exact .inNewLayer
      (Expression.inferFunction_keeps _ params result _ (Statement.inferAll_keeps statements))
  | .call _ callee arguments =>
    exact .bind callee.infer_keeps fun _ => .behind (.step _) fun _ =>
      .before (Expression.inferArguments_keeps arguments) fun _ =>
        .behind (.step _) fun _ => .pure _
  | .stray stray => exact .throw stray.failure

/-- So does the walk over further elements of an array. -/
theorem Expression.inferElements_keeps (element : Ty) (expressions : List Expression) :
    Keeps id (Expression.faultsOf expressions) (Expression.inferElements element expressions) := by
  match expressions with
  | [] => exact .pure _
  | expression :: rest =>
    exact .bind expression.infer_keeps fun _ => .behind (.step _) fun _ =>
      .before (Expression.inferElements_keeps element rest) fun _ => .pure _

/-- So does the walk over arguments. -/
theorem Expression.inferArguments_keeps (expressions : List Expression) :
    Keeps id (Expression.faultsOf expressions) (Expression.inferArguments expressions) := by
  match expressions with
  | [] => exact .pure _
  | expression :: rest =>
    exact .bind expression.infer_keeps fun _ =>
      .before (Expression.inferArguments_keeps rest) fun _ => .pure _

/-- The walk over a statement keeps the layers around the one in use. -/
theorem Statement.infer_keeps (statement : Statement) :
    Keeps Layers.outer statement.faults statement.infer := by
  match statement with
  | .constant _ _ ascription initial =>
    exact .before (.of_all (Ascription.inferValue_keeps initial.infer_keeps ascription)) fun _ =>
      .behind (.rearrange fun _ => rfl) fun _ => .pure _
  | .returning _ none => exact .pure _
  | .returning _ (some argument) => exact .before (.of_all argument.infer_keeps) fun _ => .pure _
  | .stray stray => exact .throw stray.failure

/-- So does the walk over several statements. -/
theorem Statement.inferAll_keeps (statements : List Statement) :
    Keeps Layers.outer (Statement.faultsOf statements) (Statement.inferAll statements) := by
  match statements with
  | [] => exact .pure _
  | statement :: rest =>
    exact .bind statement.infer_keeps fun _ =>
      .before (Statement.inferAll_keeps rest) fun _ => .pure _

end

/-- A constant declaration binds its name in the layer in use when everything else is done. -/
theorem Statement.constant_bound (start : LayeredInference) (offset : Int)
    (identifier : Identifier) (ascription : Option Ascription) (initial : Expression) :
    Bound identifier.name (initial.faults ++ Ascription.faultsOf ascription) start
      ((Statement.constant offset identifier ascription initial).infer start) := by
  have kept := Ascription.inferValue_keeps initial.infer_keeps ascription start
  change Bound identifier.name _ start
    (EStateM.bind (Ascription.inferValue initial.infer ascription) _ start)
  rw [EStateM.bind]
  cases ran : Ascription.inferValue initial.infer ascription start with
  | error failure after =>
    rw [ran] at kept
    exact kept
  | ok answer between =>
    rw [ran] at kept
    exact ⟨congrArg (·.bind identifier.name answer.2.2) kept.1, kept.2⟩

/-! ## Drafts without strays -/

mutual

/-- The walk over an ascription that is no draft. -/
theorem Ascription.infer_follows (written : ArrowScript.Ascription) :
    Follows (written, ·) written.draft.infer (Inferrer.ascriptionType written) := by
  match written with
  | .named _ name =>
    rw [ArrowScript.Ascription.draft, Ascription.infer, Inferrer.ascriptionType]
    cases Primitive.ofTypeName? name with
    | some kind => exact .pure _
    | none => exact .reshaped (.step .freshVariable) fun _ => rfl
  | .array _ element => exact .bind (Ascription.infer_follows element) fun _ => .pure _
  | .function _ params result =>
    exact .bind (Parameter.inferAll_follows params) fun _ =>
      .bind (Ascription.infer_follows result) fun _ => .pure _

/-- The walk over a parameter. -/
theorem Parameter.infer_follows (param : ArrowScript.Parameter) :
    Follows (param, ·) param.draft.infer (Inferrer.parameterType param) := by
  match param with
  | { ascription := some ascription, .. } =>
    exact .reshaped (Ascription.infer_follows ascription) fun _ => rfl
  | { ascription := none, .. } => exact .reshaped (.step .freshVariable) fun _ => rfl

/-- The walk over several parameters. -/
theorem Parameter.inferAll_follows (params : List ArrowScript.Parameter) :
    Follows (params, ·) (Parameter.inferAll (ArrowScript.Parameter.drafts params))
      (Inferrer.parameterTypes params) := by
  match params with
  | [] => exact .pure _
  | param :: rest =>
    exact .bind (Parameter.infer_follows param) fun _ =>
      .bind (Parameter.inferAll_follows rest) fun _ => .pure _

end

/-- Binding parameters. -/
theorem Parameter.bindAll_follows (params : List ArrowScript.Parameter) :
    Follows (params, ·) (Parameter.bindAll (ArrowScript.Parameter.drafts params))
      (Inferrer.bindParameters params) := by
  induction params with
  | nil => exact .pure _
  | cons param rest inductionHypothesis =>
    exact .bind (Parameter.infer_follows param) fun _ => .bind (.bound _ _) fun _ =>
      .bind (.held _) fun _ => .bind inductionHypothesis fun _ => .pure _

/-- Giving a type its ascription. -/
theorem Ascription.ascribe_follows (type : Ty) (offset : Int)
    (ascription : Option ArrowScript.Ascription) :
    Follows (ascription, ·)
      (Ascription.ascribe type offset (ascription.map ArrowScript.Ascription.draft))
      (Inferrer.ascribe type ascription offset) := by
  cases ascription with
  | none => exact .pure _
  | some written =>
    exact .bind (Ascription.infer_follows written) fun _ =>
      .bind (.step (.unify _ _ _)) fun _ => .pure _

/-- The value of a constant. -/
theorem Ascription.inferValue_follows {initial : ArrowScript.Expression}
    {value : LayeredInferrer (ArrowScript.Expression × Ty)}
    (follows : Follows id value (Inferrer.inferExpression initial))
    (ascription : Option ArrowScript.Ascription) :
    Follows (fun (initial, type) => (initial, ascription, type))
      (Ascription.inferValue value (ascription.map ArrowScript.Ascription.draft))
      (Inferrer.inferValue initial ascription) :=
  .bind follows fun _ => .bind (Ascription.ascribe_follows _ _ ascription) fun _ => .pure _

mutual

/-- The walk over an expression that is no draft. -/
theorem Expression.infer_follows (root : ArrowScript.Expression) :
    Follows id root.draft.infer (Inferrer.inferExpression root) := by
  match root with
  | .number _ _ | .string _ _ | .boolean _ _ => exact .pure _
  | .identifier _ => exact .bind (.step (.lookup _)) fun _ => .pure _
  | .array _ [] => exact .bind (.step .freshVariable) fun _ => .pure _
  | .array _ (first :: rest) =>
    exact .bind (Expression.infer_follows first) fun (_, element) =>
      .bind (Expression.inferElements_follows element rest) fun _ => .pure _
  | .member _ object index =>
    exact .bind (Expression.infer_follows object) fun _ =>
      .bind (Expression.infer_follows index) fun _ => .bind (.step (.unify _ _ _)) fun _ =>
        .bind (.step .freshVariable) fun _ => .bind (.step (.unify _ _ _)) fun _ => .pure _
  | .binary _ left operator right =>
    exact .bind (Expression.infer_follows left) fun _ =>
      .bind (Expression.infer_follows right) fun _ =>
        .ite (.bind (.step (.sumType _ _ _ _ _ _)) fun _ => .pure _)
          (.bind (.step (.report _ _)) fun _ => .bind (.step .freshVariable) fun _ => .pure _)
  | .conditional _ test consequent alternate =>
    exact .bind (Expression.infer_follows test) fun _ => .bind (.step (.unify _ _ _)) fun _ =>
      .bind (Expression.infer_follows consequent) fun _ =>
        .bind (Expression.infer_follows alternate) fun _ =>
          .bind (.step .freshVariable) fun _ => .bind (.step (.unify _ _ _)) fun _ =>
            .bind (.step (.unify _ _ _)) fun _ => .pure _
  | .arrow offset params result { offset := opening, statements } =>
    rw [Inferrer.inferExpression_function]
    exact .inNewLayer (Expression.inferFunction_keeps _ _ _ _ (Statement.inferAll_keeps _))
      (.bind (Parameter.bindAll_follows params) fun _ =>
        .bind (Statement.inferAll_follows statements) fun _ =>
          .bind (Ascription.ascribe_follows _ _ result) fun _ => .pure _)
  | .call _ callee arguments =>
    exact .bind (Expression.infer_follows callee) fun _ => .bind (.step (.solve _)) fun _ =>
      .bind (Expression.inferArguments_follows arguments) fun _ =>
        .bind (.step (.callType _ _ _)) fun _ => .pure _

/-- The walk over further elements of an array. -/
theorem Expression.inferElements_follows (element : Ty)
    (expressions : List ArrowScript.Expression) :
    Follows id (Expression.inferElements element (ArrowScript.Expression.drafts expressions))
      (Inferrer.inferElements element expressions) := by
  match expressions with
  | [] => exact .pure _
  | expression :: rest =>
    exact .bind (Expression.infer_follows expression) fun _ =>
      .bind (.step (.unify _ _ _)) fun _ =>
        .bind (Expression.inferElements_follows element rest) fun _ => .pure _

/-- The walk over arguments. -/
theorem Expression.inferArguments_follows (expressions : List ArrowScript.Expression) :
    Follows id (Expression.inferArguments (ArrowScript.Expression.drafts expressions))
      (Inferrer.inferArguments expressions) := by
  match expressions with
  | [] => exact .pure _
  | expression :: rest =>
    exact .bind (Expression.infer_follows expression) fun _ =>
      .bind (Expression.inferArguments_follows rest) fun _ => .pure _

/-- The walk over a statement that is no draft. -/
theorem Statement.infer_follows (statement : ArrowScript.Statement) :
    Follows id statement.draft.infer (Inferrer.inferStatement statement) := by
  match statement with
  | .constant offset identifier ascription initial earlier =>
    rw [Inferrer.inferStatement_value]
    exact .bind (Ascription.inferValue_follows (Expression.infer_follows initial) ascription)
      fun _ => .bind (.bound _ _) fun _ => .pure _
  | .returning _ none _ => exact .pure _
  | .returning _ (some argument) _ =>
    exact .bind (Expression.infer_follows argument) fun _ => .pure _

/-- The walk over several statements. -/
theorem Statement.inferAll_follows (statements : List ArrowScript.Statement) :
    Follows id (Statement.inferAll (ArrowScript.Statement.drafts statements))
      (Inferrer.inferStatements statements) := by
  match statements with
  | [] => exact .pure _
  | statement :: rest =>
    exact .bind (Statement.infer_follows statement) fun _ =>
      .bind (Statement.inferAll_follows rest) fun _ => .pure _

end

end Draft

/-! ## The discipline -/

/-- Wherever an inference stands: behind the walk over an expression all scopes are as they were,
with the names bound in them and the types of parameters, also when the walk has failed,
which it does at the first stray if there is one. A constant declaration that is finished has
given its own name a type in the scope in use; one that fails has bound nothing. On trees
without strays these walks are those of the inference. -/
theorem scopes_kept (start : LayeredInference) :
    (∀ root : Draft.Expression,
      match root.infer start with
      | .ok _ after => after.layers = start.layers ∧ root.faults = []
      | .error failure after =>
        after.layers = start.layers ∧ root.faults.head? = some failure) ∧
    (∀ (offset : Int) (identifier : Identifier) (ascription : Option Draft.Ascription)
        (initial : Draft.Expression),
      let declaration := Draft.Statement.constant offset identifier ascription initial
      match declaration.infer start with
      | .ok (_, type) after =>
        after.layers = start.layers.bind identifier.name type ∧ declaration.faults = []
      | .error failure after =>
        after.layers = start.layers ∧ declaration.faults.head? = some failure) ∧
    (∀ root : Expression,
      let outcome := (Inferrer.inferExpression root).run start.flat
      outcome.2.environment = start.flat.environment ∧
        outcome.2.undetermined = start.flat.undetermined ∧
        ∃ after, root.draft.infer start = .ok outcome.1 after ∧ after.flat = outcome.2) ∧
    (∀ (offset : Int) (identifier : Identifier) (ascription : Option Ascription)
        (initial : Expression) (earlier : Option Ty),
      let declaration := Statement.constant offset identifier ascription initial earlier
      let outcome := (Inferrer.inferStatement declaration).run start.flat
      outcome.2.environment = (identifier.name, outcome.1.2) :: start.flat.environment ∧
        outcome.2.undetermined = start.flat.undetermined ∧
        ∃ after, declaration.draft.infer start = .ok outcome.1 after ∧
          after.flat = outcome.2) := by
  refine ⟨?_, ?_, ?_, ?_⟩
  · intro root
    have kept := root.infer_keeps start
    generalize root.infer start = outcome at kept ⊢
    cases outcome <;> exact kept
  · intro offset identifier ascription initial declaration
    have bound : LayeredInferrer.Bound _ declaration.faults start (declaration.infer start) :=
      Draft.Statement.constant_bound start offset identifier ascription initial
    generalize declaration.infer start = outcome at bound ⊢
    cases outcome <;> exact bound
  · intro root outcome
    obtain ⟨after, ran, flat⟩ := Draft.Expression.infer_follows root start
    have kept := root.draft.infer_keeps start
    rw [ran] at kept
    have layers : after.layers = start.layers := kept.1
    refine ⟨?_, ?_, after, ran, flat⟩
    · rw [← flat]
      exact congrArg Layers.environment layers
    · rw [← flat]
      exact congrArg (·.innermost.undetermined) layers
  · intro offset identifier ascription initial earlier declaration outcome
    obtain ⟨after, ran, flat⟩ := Draft.Statement.infer_follows declaration start
    have bound := Draft.Statement.constant_bound start offset identifier
      (ascription.map Ascription.draft) initial.draft
    change LayeredInferrer.Bound _ _ _ (declaration.draft.infer start) at bound
    rw [ran] at bound
    have layers : after.layers = start.layers.bind identifier.name outcome.1.2 := bound.1
    refine ⟨?_, ?_, after, ran, flat⟩
    · rw [← flat]
      exact congrArg Layers.environment layers
    · rw [← flat]
      exact congrArg (·.innermost.undetermined) layers

/-- A block stands among the elements of an array, two functions deep. The walk has made the
types of both parameters when it comes there, and leaves no layer behind. -/
example :
    let block : Stray Inferrer.inferNode :=
      ⟨.block { offset := 30, statements := [] }, .noInferenceRule .block, rfl⟩
    let root : Draft.Expression :=
      .arrow 0 [⟨1, "x", none, none⟩] none 7
        [.constant 9 { offset := 15, name := "y" } none
          (.arrow 19 [⟨20, "z", none, none⟩] none 26
            [.returning 28 (some (.array 29 [.stray block]))])]
    match root.infer {} with
    | .ok _ _ => False
    | .error failure after =>
      failure = .noInferenceRule .block ∧ after.store.cells.size = 2 ∧
        after.layers.innermost.bindings = [] ∧ after.layers.outer = [] := by
  exact ⟨rfl, rfl, rfl, rfl⟩

end ArrowScript
