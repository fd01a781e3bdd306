import ArrowScript.Ty.Inference

/-!
# The visits of an inference

How often a walk visits a statement cannot be seen from what it answers. So the walk is
carried out here once more, by the same rules, with a record of the statements that it
visits. The record changes nothing of the walk, and when the walk is over it holds all
statements of the tree in the order of the source, each of them once.
-/

namespace ArrowScript

/-- A walk that keeps a record of the statements that it has visited. -/
abbrev Recorder := StateT (List Statement) Inferrer

namespace Recorder

open Inferrer

/-- Records a visit. -/
def visit (statement : Statement) : Recorder Unit := modify (· ++ [statement])

/-- A recorded walk in a scope of its own. The record is kept. -/
def inNewScope {α : Type} (walk : Recorder α) : Recorder α :=
  fun record => Inferrer.inNewScope (walk.run record)

mutual

/-- Infers the type of an expression. -/
def recordExpression : Expression → Recorder (Expression × Ty)
  | .number offset value => return (.number offset value, numeralType value)
  | .string offset value => return (.string offset value, .primitive .string)
  | .boolean offset value => return (.boolean offset value, .primitive .bool)
  | .identifier identifier => do
    let type ← (lookup identifier.name : Inferrer Ty)
    return (.identifier identifier, type)
  | .array offset [] => do
    let element ← freshVariable
    return (.array offset [], .array element)
  | .array offset (first :: rest) => do
    let (first, element) ← recordExpression first
    let rest ← recordElements element rest
    return (.array offset (first :: rest), .array element)
  | .member offset object index => do
    let (object, objectType) ← recordExpression object
    let (index, indexType) ← recordExpression index
    let _ ← unify indexType (.primitive .number) index.offset
    let element ← freshVariable
    let _ ← unify objectType (.array element) object.offset
    return (.member offset object index, element)
  | .binary offset left operator right => do
    let (left, leftType) ← recordExpression left
    let (right, rightType) ← recordExpression right
    if operator = "+" then
      let type ← sumType leftType rightType left.offset right.offset offset operator
      return (.binary offset left operator right, type)
    else
      report [.unsupportedOperator operator] offset
      let type ← freshVariable
      return (.binary offset left operator right, type)
  | .conditional offset test consequent alternate => do
    let (test, testType) ← recordExpression test
    let _ ← unify testType (.primitive .bool) test.offset
    let (consequent, consequentType) ← recordExpression consequent
    let (alternate, alternateType) ← recordExpression alternate
    let result ← freshVariable
    let _ ← unify consequentType result consequent.offset
    let _ ← unify alternateType result alternate.offset
    return (.conditional offset test consequent alternate, result)
  | .arrow offset params result { offset := opening, statements } => inNewScope do
    let paramTypes ← bindParameters params
    let body ← recordStatements statements
    let type ← functionType paramTypes body result offset
    return (.arrow offset params result { offset := opening, statements := body.map (·.1) }, type)
  | .call offset callee arguments => do
    let (callee, calleeType) ← recordExpression callee
    let calleeType ← solve (Solver.compress calleeType)
    let arguments ← recordArguments arguments
    let type ← callType calleeType arguments offset
    return (.call offset callee (arguments.map (·.1)), type)

/-- Infers the further elements of an array. -/
def recordElements (element : Ty) : List Expression → Recorder (List Expression)
  | [] => return []
  | expression :: rest => do
    let (expression, type) ← recordExpression expression
    let _ ← unify element type expression.offset
    let rest ← recordElements element rest
    return expression :: rest

/-- Infers the arguments of a call. -/
def recordArguments : List Expression → Recorder (List (Expression × Ty))
  | [] => return []
  | expression :: rest => do
    let inferred ← recordExpression expression
    let rest ← recordArguments rest
    return inferred :: rest

/-- Records a visit of a statement, and infers its type. -/
def recordStatement (statement : Statement) : Recorder (Statement × Ty) := do
  visit statement
  match statement with
  | .constant offset id ascription initial _ => do
    let (initial, initialType) ← recordExpression initial
    let type ← match ascription with
      | none => pure initialType
      | some written => do
        let declared ← ascriptionType written
        let _ ← unify initialType declared initial.offset
        pure declared
    bind id.name type
    return (.constant offset id ascription initial (some type), type)
  | .returning offset none _ =>
    return (.returning offset none (some (.primitive .void)), .primitive .void)
  | .returning offset (some argument) _ => do
    let (argument, type) ← recordExpression argument
    return (.returning offset (some argument) (some type), type)

/-- Infers several statements. -/
def recordStatements : List Statement → Recorder (List (Statement × Ty))
  | [] => return []
  | statement :: rest => do
    let inferred ← recordStatement statement
    let rest ← recordStatements rest
    return inferred :: rest

end

/-! ## Recorded walks -/

variable {α β : Type} {walk : Recorder α} {plain : Inferrer α} {next : α → Recorder β}
  {following : α → Inferrer β} {visited further : List Statement}

/-- The recorded walk does what the plain one does, and adds the visited statements to the
record. -/
def Records (walk : Recorder α) (plain : Inferrer α) (visited : List Statement) : Prop :=
  ∀ record inference, (walk.run record).run inference =
    (((plain.run inference).1, record ++ visited), (plain.run inference).2)

namespace Records

/-- A result. -/
theorem pure (result : α) : Records (pure result) (pure result) [] := by
  intro record inference
  rw [List.append_nil]
  rfl

/-- A walk that visits nothing. -/
theorem lift (plain : Inferrer α) : Records (liftM plain) plain [] := by
  intro record inference
  rw [List.append_nil]
  rfl

/-- Two walks, one after the other. -/
theorem bind (first : Records walk plain visited)
    (second : ∀ result, Records (next result) (following result) further) :
    Records (walk >>= next) (plain >>= following) (visited ++ further) := by
  intro record inference
  change ((next ((walk.run record).run inference).1.1).run
    ((walk.run record).run inference).1.2).run ((walk.run record).run inference).2 = _
  rw [first, second, List.append_assoc]
  rfl

/-- A walk behind one that visits nothing. -/
theorem behind (plain : Inferrer α)
    (second : ∀ result, Records (next result) (following result) further) :
    Records (liftM plain >>= next) (plain >>= following) further :=
  bind (lift plain) second

/-- A visit before a walk. -/
theorem visit (statement : Statement) {next : Recorder α} {following : Inferrer α}
    (second : Records next following further) :
    Records (visit statement >>= fun _ => next) following (statement :: further) := by
  intro record inference
  rw [List.append_cons]
  exact second (record ++ [statement]) inference

/-- A choice. -/
theorem ite {condition : Prop} [Decidable condition] {other : Recorder α}
    {alternative : Inferrer α} (positive : Records walk plain visited)
    (negative : Records other alternative visited) :
    Records (if condition then walk else other) (if condition then plain else alternative)
      visited := by
  split
  · exact positive
  · exact negative

/-- A walk in a scope of its own. -/
theorem inNewScope (records : Records walk plain visited) :
    Records (inNewScope walk) (Inferrer.inNewScope plain) visited := by
  intro record inference
  change (let outcome := (walk.run record).run inference;
    (outcome.1, { outcome.2 with
      environment := inference.environment, undetermined := inference.undetermined })) = _
  rw [records]
  rfl

/-- The visited statements can be listed in another way. -/
theorem congr (records : Records walk plain visited) (same : visited = further) :
    Records walk plain further := same ▸ records

end Records

/-! ## Trees -/

mutual

/-- The recorded walk over an expression visits the statements in it. -/
theorem recordExpression_records (depth : Nat) (expression : Expression) :
    Records (recordExpression expression) (inferExpression expression)
      ((expression.statements depth).map (·.2)) := by
  match expression with
  | .number _ _ | .string _ _ | .boolean _ _ => exact .pure _
  | .identifier _ => exact .behind _ fun _ => .pure _
  | .array _ [] => exact .behind _ fun _ => .pure _
  | .array offset (first :: rest) =>
    refine .congr (.bind (recordExpression_records depth first) fun (_, element) =>
      .bind (recordElements_records depth element rest) fun _ => .pure _) ?_
    simp [Expression.statements, Expression.statementsOf]
  | .member offset object index =>
    refine .congr (.bind (recordExpression_records depth object) fun (_, _) =>
      .bind (recordExpression_records depth index) fun (_, _) =>
        .behind _ fun _ => .behind _ fun _ => .behind _ fun _ => .pure _) ?_
    simp [Expression.statements]
  | .binary offset left operator right =>
    refine .congr (.bind (recordExpression_records depth left) fun (_, _) =>
      .bind (recordExpression_records depth right) fun (_, _) =>
        .ite (.behind _ fun _ => .pure _) (.behind _ fun _ => .behind _ fun _ => .pure _)) ?_
    simp [Expression.statements]
  | .conditional offset test consequent alternate =>
    refine .congr (.bind (recordExpression_records depth test) fun (_, _) => .behind _ fun _ =>
      .bind (recordExpression_records depth consequent) fun (_, _) =>
        .bind (recordExpression_records depth alternate) fun (_, _) =>
          .behind _ fun _ => .behind _ fun _ => .behind _ fun _ => .pure _) ?_
    simp [Expression.statements]
  | .arrow offset params result { offset := opening, statements } =>
    refine .inNewScope (.behind _ fun _ => .congr
      (.bind (recordStatements_records (depth + 1) statements) fun _ =>
        .behind _ fun _ => .pure _) ?_)
    simp [Expression.statements]
  | .call offset callee arguments =>
    refine .congr (.bind (recordExpression_records depth callee) fun (_, _) => .behind _ fun _ =>
      .bind (recordArguments_records depth arguments) fun _ => .behind _ fun _ => .pure _) ?_
    simp [Expression.statements]

/-- The recorded walk over further elements visits the statements in them. -/
theorem recordElements_records (depth : Nat) (element : Ty) (expressions : List Expression) :
    Records (recordElements element expressions) (inferElements element expressions)
      ((Expression.statementsOf depth expressions).map (·.2)) := by
  match expressions with
  | [] => exact .pure _
  | expression :: rest =>
    refine .congr (.bind (recordExpression_records depth expression) fun (_, _) =>
      .behind _ fun _ => .bind (recordElements_records depth element rest) fun _ => .pure _) ?_
    simp [Expression.statementsOf]

/-- The recorded walk over arguments visits the statements in them. -/
theorem recordArguments_records (depth : Nat) (expressions : List Expression) :
    Records (recordArguments expressions) (inferArguments expressions)
      ((Expression.statementsOf depth expressions).map (·.2)) := by
  match expressions with
  | [] => exact .pure _
  | expression :: rest =>
    refine .congr (.bind (recordExpression_records depth expression) fun _ =>
      .bind (recordArguments_records depth rest) fun _ => .pure _) ?_
    simp [Expression.statementsOf]

/-- The recorded walk over a statement visits it, and then the statements inside it. -/
theorem recordStatement_records (depth : Nat) (statement : Statement) :
    Records (recordStatement statement) (inferStatement statement)
      (statement :: (statement.inside depth).map (·.2)) := by
  match statement with
  | .constant offset id none initial _ =>
    refine .visit _ (.congr (.bind (recordExpression_records depth initial) fun (_, _) =>
      .bind (.pure _) fun _ => .behind _ fun _ => .pure _) ?_)
    simp [Statement.inside]
  | .constant offset id (some _) initial _ =>
    refine .visit _ (.congr (.bind (recordExpression_records depth initial) fun (_, _) =>
      .behind _ fun _ => .behind _ fun _ => .bind (.pure _) fun _ => .behind _ fun _ =>
        .pure _) ?_)
    simp [Statement.inside]
  | .returning _ none _ => exact .visit _ (.pure _)
  | .returning offset (some argument) _ =>
    refine .visit _ (.congr (.bind (recordExpression_records depth argument) fun (_, _) =>
      .pure _) ?_)
    simp [Statement.inside]

/-- The recorded walk over several statements visits each, with the statements inside it. -/
theorem recordStatements_records (depth : Nat) (statements : List Statement) :
    Records (recordStatements statements) (inferStatements statements)
      ((Statement.listed depth statements).map (·.2)) := by
  match statements with
  | [] => exact .pure _
  | statement :: rest =>
    refine .congr (.bind (recordStatement_records depth statement) fun _ =>
      .bind (recordStatements_records depth rest) fun _ => .pure _) ?_
    simp [Statement.listed]

end

end Recorder

end ArrowScript
