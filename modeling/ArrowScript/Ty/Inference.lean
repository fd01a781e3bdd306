import ArrowScript.InternalError
import ArrowScript.Tree.Statements
import ArrowScript.Ty.Instance
import ArrowScript.Ty.Unification

/-!
# Type inference

Every expression is given a type term. Names bound by `const` are polymorphic: each
use takes a fresh instance of the type. The variables in the types of parameters are
not replaced as long as their function is being inferred, so a parameter has one
type at all of its uses.

The walk never stops at an error. A problem is recorded at the offset of the node
that it concerns, and the walk goes on with what has been unified.

The walk returns the tree with the types of its statements filled in. They are
resolved when the walk is over, since later statements of a function still determine
earlier types in it.
-/

namespace ArrowScript

/-- What the walk knows at a place of the tree: the variables, the problems so far,
the types of the names in scope, innermost first, and the types of the parameters
of the functions around the place. -/
structure Inference where
  store : Store := {}
  diagnostics : List Diagnostic := []
  environment : List (String × Ty) := []
  undetermined : List Ty := []

/-- A walk over a part of a tree. -/
abbrev Inferrer := StateM Inference

namespace Inferrer

/-- Runs a computation on the store. -/
def solve {α : Type} (solver : Solver α) : Inferrer α :=
  modifyGet fun inference =>
    let (result, store) := solver.run inference.store
    (result, { inference with store })

/-- Records problems at an offset. -/
def report (problems : List Problem) (offset : Int) : Inferrer Unit :=
  modify fun inference =>
    { inference with
      diagnostics := inference.diagnostics ++ problems.map fun problem => ⟨problem, offset⟩ }

/-- A new type variable. -/
def freshVariable : Inferrer Ty := do return .var (← solve Solver.fresh)

/-- Unifies two types, and tells whether that was possible. Conflicts are reported at
an offset. -/
def unify (left right : Ty) (offset : Int) : Inferrer Bool := do
  let problems ← solve (Solver.unify left right)
  report problems offset
  return problems.isEmpty

/-- Gives a name a type from here on. -/
def bind (name : String) (type : Ty) : Inferrer Unit :=
  modify fun inference => { inference with environment := (name, type) :: inference.environment }

/-- An instance of a type. -/
def instantiate (type : Ty) : Inferrer Ty := do
  let undetermined := (← get).undetermined
  solve (Solver.freshInstance undetermined type)

/-- The type of a use of a name. A name without a type has been reported by the name
resolution, and may have any type here. -/
def lookup (name : String) : Inferrer Ty := do
  match (← get).environment.lookup name with
  | none => freshVariable
  | some type => instantiate type

/-- Runs a walk in a scope of its own. Its names are forgotten behind it, and so are
the parameter types that it has added. -/
def inNewScope {α : Type} (walk : Inferrer α) : Inferrer α := do
  let outer ← get
  let result ← walk
  modify fun inner =>
    { inner with environment := outer.environment, undetermined := outer.undetermined }
  return result

mutual

/-- The type that an ascription denotes. A name that is no built-in type stands for
some type, another one at each place. -/
def ascriptionType : Ascription → Inferrer Ty
  | .named _ name =>
    match Primitive.ofTypeName? name with
    | some kind => return .primitive kind
    | none => freshVariable
  | .array _ element => return .array (← ascriptionType element)
  | .function _ params result => do
    let params ← parameterTypes params
    return .function params (← ascriptionType result)

/-- The type of a parameter. Without an ascription it may be any type. -/
def parameterType : Parameter → Inferrer Ty
  | { ascription := some ascription, .. } => ascriptionType ascription
  | { ascription := none, .. } => freshVariable

/-- The types of several parameters. -/
def parameterTypes : List Parameter → Inferrer (List Ty)
  | [] => return []
  | param :: rest => do
    let type ← parameterType param
    return type :: (← parameterTypes rest)

end

/-- Binds the parameters of a function whose body is inferred next. -/
def bindParameters : List Parameter → Inferrer (List Ty)
  | [] => return []
  | param :: rest => do
    let type ← parameterType param
    bind param.name type
    modify fun inference => { inference with undetermined := inference.undetermined ++ [type] }
    return type :: (← bindParameters rest)

/-- Tells whether a type is the primitive of strings. -/
def isString (type : Ty) : Inferrer Bool := do
  match ← solve (Solver.compress type) with
  | .primitive .string => return true
  | _ => return false

/-- The type of a number literal: integers are numbers, also when they are written
with a fraction. -/
def numeralType (value : Numeral) : Ty :=
  if value.isWhole then .primitive .number else .primitive .float

/-- The type of a sum. With a string on one side both sides have to be strings.
Otherwise both sides have one numeric type, which is `Number` unless it is known to
be `Float`. -/
def sumType (left right : Ty) (leftOffset rightOffset offset : Int) (operator : String) :
    Inferrer Ty := do
  let textual ← if ← isString left then pure true else isString right
  if textual then
    let _ ← unify left (.primitive .string) leftOffset
    let _ ← unify right (.primitive .string) rightOffset
    return .primitive .string
  let operand ← solve Solver.fresh
  let leftFits ← unify left (.var operand) leftOffset
  let rightFits ← unify right (.var operand) rightOffset
  match ← solve (Solver.compress (.var operand)) with
  | .var free =>
    solve (modify (·.setLink free (.primitive .number)))
    return .primitive .number
  | .primitive .number => return .primitive .number
  | .primitive .float => return .primitive .float
  | other =>
    if leftFits && rightFits then
      let provided ← solve (Solver.print other)
      report [.operatorTypeMismatch operator provided] offset
    freshVariable

/-- Unifies the parameter types of a function with the types of the arguments, each
conflict being reported at its argument. -/
def passArguments : List Ty → List (Expression × Ty) → Inferrer Unit
  | param :: params, (argument, type) :: arguments => do
    let _ ← unify param type argument.offset
    passArguments params arguments
  | _, _ => return ()

/-- The type of a call, given what was known of the callee before the arguments were
inferred. -/
def callType (callee : Ty) (arguments : List (Expression × Ty)) (offset : Int) :
    Inferrer Ty := do
  match callee with
  | .var _ =>
    let result ← freshVariable
    let _ ← unify callee (.function (arguments.map (·.2)) result) offset
    return result
  | .function params result =>
    if params.length ≠ arguments.length then
      report [.arityMismatch params.length arguments.length] offset
      freshVariable
    else
      passArguments params arguments
      return result
  | _ =>
    let provided ← solve (Solver.print callee)
    report [.notCallable provided] offset
    freshVariable

/-- The type of a function, once its body has been inferred. It returns what its first
return statement returns, or nothing. -/
def functionType (params : List Ty) (body : List (Statement × Ty)) (result : Option Ascription)
    (offset : Int) : Inferrer Ty := do
  let returned := (body.find? (·.1.isReturn)).map (·.2)
  let returned := returned.getD (.primitive .void)
  match result with
  | none => return .function params returned
  | some ascription =>
    let annotated ← ascriptionType ascription
    let _ ← unify returned annotated offset
    return .function params annotated

mutual

/-- Infers the type of an expression. -/
def inferExpression : Expression → Inferrer (Expression × Ty)
  | .number offset value => return (.number offset value, numeralType value)
  | .string offset value => return (.string offset value, .primitive .string)
  | .boolean offset value => return (.boolean offset value, .primitive .bool)
  | .identifier identifier => return (.identifier identifier, ← lookup identifier.name)
  | .array offset [] => return (.array offset [], .array (← freshVariable))
  | .array offset (first :: rest) => do
    let (first, element) ← inferExpression first
    let rest ← inferElements element rest
    return (.array offset (first :: rest), .array element)
  | .member offset object index => do
    let (object, objectType) ← inferExpression object
    let (index, indexType) ← inferExpression index
    let _ ← unify indexType (.primitive .number) index.offset
    let element ← freshVariable
    let _ ← unify objectType (.array element) object.offset
    return (.member offset object index, element)
  | .binary offset left operator right => do
    let (left, leftType) ← inferExpression left
    let (right, rightType) ← inferExpression right
    if operator = "+" then
      let type ← sumType leftType rightType left.offset right.offset offset operator
      return (.binary offset left operator right, type)
    else
      report [.unsupportedOperator operator] offset
      return (.binary offset left operator right, ← freshVariable)
  | .conditional offset test consequent alternate => do
    let (test, testType) ← inferExpression test
    let _ ← unify testType (.primitive .bool) test.offset
    let (consequent, consequentType) ← inferExpression consequent
    let (alternate, alternateType) ← inferExpression alternate
    let result ← freshVariable
    let _ ← unify consequentType result consequent.offset
    let _ ← unify alternateType result alternate.offset
    return (.conditional offset test consequent alternate, result)
  | .arrow offset params result { offset := opening, statements } => inNewScope do
    let paramTypes ← bindParameters params
    let body ← inferStatements statements
    let type ← functionType paramTypes body result offset
    return (.arrow offset params result { offset := opening, statements := body.map (·.1) }, type)
  | .call offset callee arguments => do
    let (callee, calleeType) ← inferExpression callee
    let calleeType ← solve (Solver.compress calleeType)
    let arguments ← inferArguments arguments
    let type ← callType calleeType arguments offset
    return (.call offset callee (arguments.map (·.1)), type)

/-- Infers the further elements of an array, whose type is that of the first one. -/
def inferElements (element : Ty) : List Expression → Inferrer (List Expression)
  | [] => return []
  | expression :: rest => do
    let (expression, type) ← inferExpression expression
    let _ ← unify element type expression.offset
    return expression :: (← inferElements element rest)

/-- Infers the arguments of a call. -/
def inferArguments : List Expression → Inferrer (List (Expression × Ty))
  | [] => return []
  | expression :: rest => do
    let inferred ← inferExpression expression
    return inferred :: (← inferArguments rest)

/-- Infers the type of a statement and fills it in. A constant is bound to its
ascription if it has one. -/
def inferStatement : Statement → Inferrer (Statement × Ty)
  | .constant offset id ascription initial _ => do
    let (initial, initialType) ← inferExpression initial
    let type ← match ascription with
      | none => pure initialType
      | some written => do
        let declared ← ascriptionType written
        let _ ← unify initialType declared initial.offset
        pure declared
    bind id.name type
    return (.constant offset id ascription initial (some type), type)
  | .returning offset none _ =>
    return (.returning offset none (some (.primitive .void)), .primitive .void)
  | .returning offset (some argument) _ => do
    let (argument, type) ← inferExpression argument
    return (.returning offset (some argument) (some type), type)

/-- Infers several statements. -/
def inferStatements : List Statement → Inferrer (List (Statement × Ty))
  | [] => return []
  | statement :: rest => do
    let inferred ← inferStatement statement
    return inferred :: (← inferStatements rest)

end

/-- The type of a node of a kind that has one. -/
def inferNode : Node → Except InternalError (Inferrer Ty)
  | .expression root => return (·.2) <$> inferExpression root
  | .statement root => return (·.2) <$> inferStatement root
  | other => throw (.noInferenceRule other.kind)

/-- The type that a node denotes as an ascription. -/
def ascriptionNodeType : Node → Except InternalError (Inferrer Ty)
  | .ascription root => return ascriptionType root
  | other => throw (.unknownAscription other.kind)

end Inferrer

/-- Infers the types of a program and fills them in, as far as they have been
determined at the end. -/
def Program.infer (program : Program) : Program × List Diagnostic :=
  let (body, inference) := (Inferrer.inferStatements program.body).run {}
  let statements := body.map (·.1)
  ({ program with body := Statement.mapTypesAll inference.store.resolve statements },
    inference.diagnostics)

end ArrowScript
