import ArrowScript.Proofs.Inference.Layers
import ArrowScript.Proofs.Inference.Trees

/-!
# Drafts

A tree need not come from the parser. In one that is put together by hand, or changed later
on, a node can stand at a place where no node of its kind belongs, and for which the
inference has no rule. A draft is a tree that may have such strays at the places of its
expressions, statements and ascriptions, at any depth.

The walk over a draft goes by the rules of the inference and binds names in layers. It fails
at the first stray that it comes to, and sees none of those behind it.
-/

namespace ArrowScript

open Inferrer (numeralType freshVariable lookup unify report sumType callType returnedType)
open LayeredInferrer (step rearrange inNewLayer)

/-- A node at a place where a rule is asked for that there is not, with the failure that this
leads to. -/
structure Stray (rule : Node → Except InternalError (Inferrer Ty)) where
  node : Node
  failure : InternalError
  unruled : rule node = .error failure

namespace Draft

mutual

/-- A draft of an ascription. -/
inductive Ascription where
  | named (offset : Int) (name : String)
  | array (offset : Int) (element : Ascription)
  | function (offset : Int) (params : List Parameter) (result : Ascription)
  | stray (stray : Stray Inferrer.ascriptionNodeType)

/-- A draft of a parameter. -/
structure Parameter where
  offset : Int
  name : String
  ascription : Option Ascription
  declaration : Option Link

end

mutual

/-- A draft of an expression. The body of a function begins at an offset of its own. -/
inductive Expression where
  | number (offset : Int) (value : Numeral)
  | string (offset : Int) (value : String)
  | boolean (offset : Int) (value : Bool)
  | identifier (identifier : Identifier)
  | array (offset : Int) (elements : List Expression)
  | member (offset : Int) (object index : Expression)
  | binary (offset : Int) (left : Expression) (operator : String) (right : Expression)
  | conditional (offset : Int) (test consequent alternate : Expression)
  | arrow (offset : Int) (params : List Parameter) (result : Option Ascription) (opening : Int)
      (statements : List Statement)
  | call (offset : Int) (callee : Expression) (arguments : List Expression)
  | stray (stray : Stray Inferrer.inferNode)

/-- A draft of a statement. -/
inductive Statement where
  | constant (offset : Int) (id : Identifier) (ascription : Option Ascription)
      (initial : Expression)
  | returning (offset : Int) (argument : Option Expression)
  | stray (stray : Stray Inferrer.inferNode)

end

/-! ## The walk over a draft -/

mutual

/-- The type that an ascription denotes. Every walk answers with the tree itself when it
has met no stray. -/
def Ascription.infer : Ascription → LayeredInferrer (ArrowScript.Ascription × Ty)
  | .named offset name =>
    match Primitive.ofTypeName? name with
    | some kind => return (.named offset name, .primitive kind)
    | none => return (.named offset name, ← step freshVariable)
  | .array offset element => do
    let (element, type) ← element.infer
    return (.array offset element, .array type)
  | .function offset params result => do
    let (params, types) ← Parameter.inferAll params
    let (result, type) ← result.infer
    return (.function offset params result, .function types type)
  | .stray stray => throw stray.failure

/-- The type of a parameter. -/
def Parameter.infer : Parameter → LayeredInferrer (ArrowScript.Parameter × Ty)
  | { offset, name, ascription := some ascription, declaration } => do
    let (ascription, type) ← ascription.infer
    return ({ offset, name, ascription := some ascription, declaration }, type)
  | { offset, name, ascription := none, declaration } =>
    return ({ offset, name, ascription := none, declaration }, ← step freshVariable)

/-- The types of several parameters. -/
def Parameter.inferAll : List Parameter → LayeredInferrer (List ArrowScript.Parameter × List Ty)
  | [] => return ([], [])
  | param :: rest => do
    let (param, type) ← param.infer
    let (rest, types) ← Parameter.inferAll rest
    return (param :: rest, type :: types)

end

/-- Binds the parameters of a function whose body is inferred next. -/
def Parameter.bindAll : List Parameter → LayeredInferrer (List ArrowScript.Parameter × List Ty)
  | [] => return ([], [])
  | param :: rest => do
    let (param, type) ← param.infer
    rearrange (·.bind param.name type)
    rearrange (·.hold type)
    let (rest, types) ← Parameter.bindAll rest
    return (param :: rest, type :: types)

/-- Gives a type the ascription that is written for it, if there is one. -/
def Ascription.ascribe (type : Ty) (offset : Int) :
    Option Ascription → LayeredInferrer (Option ArrowScript.Ascription × Ty)
  | none => return (none, type)
  | some written => do
    let (written, declared) ← written.infer
    let _ ← step (unify type declared offset)
    return (some written, declared)

/-- Infers the value of a constant, and gives it its ascription. -/
def Ascription.inferValue (value : LayeredInferrer (ArrowScript.Expression × Ty))
    (ascription : Option Ascription) :
    LayeredInferrer (ArrowScript.Expression × Option ArrowScript.Ascription × Ty) := do
  let (initial, type) ← value
  let (ascription, type) ← Ascription.ascribe type initial.offset ascription
  return (initial, ascription, type)

/-- Infers the type of a function in its layer, with a walk over its body. -/
def Expression.inferFunction (offset : Int) (params : List Parameter) (result : Option Ascription)
    (opening : Int) (body : LayeredInferrer (List (ArrowScript.Statement × Ty))) :
    LayeredInferrer (ArrowScript.Expression × Ty) := do
  let (params, paramTypes) ← Parameter.bindAll params
  let body ← body
  let (result, type) ← Ascription.ascribe (returnedType body) offset result
  return (.arrow offset params result { offset := opening, statements := body.map (·.1) },
    .function paramTypes type)

mutual

/-- Infers the type of an expression. -/
def Expression.infer : Expression → LayeredInferrer (ArrowScript.Expression × Ty)
  | .number offset value => return (.number offset value, numeralType value)
  | .string offset value => return (.string offset value, .primitive .string)
  | .boolean offset value => return (.boolean offset value, .primitive .bool)
  | .identifier identifier => return (.identifier identifier, ← step (lookup identifier.name))
  | .array offset [] => return (.array offset [], .array (← step freshVariable))
  | .array offset (first :: rest) => do
    let (first, element) ← first.infer
    let rest ← Expression.inferElements element rest
    return (.array offset (first :: rest), .array element)
  | .member offset object index => do
    let (object, objectType) ← object.infer
    let (index, indexType) ← index.infer
    let _ ← step (unify indexType (.primitive .number) index.offset)
    let element ← step freshVariable
    let _ ← step (unify objectType (.array element) object.offset)
    return (.member offset object index, element)
  | .binary offset left operator right => do
    let (left, leftType) ← left.infer
    let (right, rightType) ← right.infer
    if operator = "+" then
      let type ← step (sumType leftType rightType left.offset right.offset offset operator)
      return (.binary offset left operator right, type)
    else
      step (report [.unsupportedOperator operator] offset)
      return (.binary offset left operator right, ← step freshVariable)
  | .conditional offset test consequent alternate => do
    let (test, testType) ← test.infer
    let _ ← step (unify testType (.primitive .bool) test.offset)
    let (consequent, consequentType) ← consequent.infer
    let (alternate, alternateType) ← alternate.infer
    let result ← step freshVariable
    let _ ← step (unify consequentType result consequent.offset)
    let _ ← step (unify alternateType result alternate.offset)
    return (.conditional offset test consequent alternate, result)
  | .arrow offset params result opening statements =>
    inNewLayer (Expression.inferFunction offset params result opening
      (Statement.inferAll statements))
  | .call offset callee arguments => do
    let (callee, calleeType) ← callee.infer
    let calleeType ← step (Inferrer.solve (Solver.compress calleeType))
    let arguments ← Expression.inferArguments arguments
    let type ← step (callType calleeType arguments offset)
    return (.call offset callee (arguments.map (·.1)), type)
  | .stray stray => throw stray.failure

/-- Infers the further elements of an array, whose type is that of the first one. -/
def Expression.inferElements (element : Ty) :
    List Expression → LayeredInferrer (List ArrowScript.Expression)
  | [] => return []
  | expression :: rest => do
    let (expression, type) ← expression.infer
    let _ ← step (unify element type expression.offset)
    let rest ← Expression.inferElements element rest
    return expression :: rest

/-- Infers the arguments of a call. -/
def Expression.inferArguments :
    List Expression → LayeredInferrer (List (ArrowScript.Expression × Ty))
  | [] => return []
  | expression :: rest => do
    let inferred ← expression.infer
    let rest ← Expression.inferArguments rest
    return inferred :: rest

/-- Infers the type of a statement. A constant is bound in the layer in use. -/
def Statement.infer : Statement → LayeredInferrer (ArrowScript.Statement × Ty)
  | .constant offset id ascription initial => do
    let (initial, ascription, type) ← Ascription.inferValue initial.infer ascription
    rearrange (·.bind id.name type)
    return (.constant offset id ascription initial (some type), type)
  | .returning offset none =>
    return (.returning offset none (some (.primitive .void)), .primitive .void)
  | .returning offset (some argument) => do
    let (argument, type) ← argument.infer
    return (.returning offset (some argument) (some type), type)
  | .stray stray => throw stray.failure

/-- Infers several statements. -/
def Statement.inferAll : List Statement → LayeredInferrer (List (ArrowScript.Statement × Ty))
  | [] => return []
  | statement :: rest => do
    let inferred ← statement.infer
    let rest ← Statement.inferAll rest
    return inferred :: rest

end

/-! ## The strays of a draft -/

mutual

/-- The failures of the strays in an ascription, in the order of the walk. -/
def Ascription.faults : Ascription → List InternalError
  | .named _ _ => []
  | .array _ element => element.faults
  | .function _ params result => Parameter.faultsOf params ++ result.faults
  | .stray stray => [stray.failure]

/-- The failures of the strays in the ascription of a parameter. -/
def Parameter.faults : Parameter → List InternalError
  | { ascription := some ascription, .. } => ascription.faults
  | { ascription := none, .. } => []

/-- The failures of the strays in several parameters. -/
def Parameter.faultsOf : List Parameter → List InternalError
  | [] => []
  | param :: rest => param.faults ++ Parameter.faultsOf rest

end

/-- The failures of the strays in an ascription that may be missing. -/
def Ascription.faultsOf : Option Ascription → List InternalError
  | none => []
  | some written => written.faults

mutual

/-- The failures of the strays in an expression. The ascription of a result comes behind the
body. -/
def Expression.faults : Expression → List InternalError
  | .number _ _ | .string _ _ | .boolean _ _ | .identifier _ => []
  | .array _ elements => Expression.faultsOf elements
  | .member _ object index => object.faults ++ index.faults
  | .binary _ left _ right => left.faults ++ right.faults
  | .conditional _ test consequent alternate =>
    test.faults ++ (consequent.faults ++ alternate.faults)
  | .arrow _ params result _ statements =>
    Parameter.faultsOf params ++ (Statement.faultsOf statements ++ Ascription.faultsOf result)
  | .call _ callee arguments => callee.faults ++ Expression.faultsOf arguments
  | .stray stray => [stray.failure]

/-- The failures of the strays in several expressions. -/
def Expression.faultsOf : List Expression → List InternalError
  | [] => []
  | expression :: rest => expression.faults ++ Expression.faultsOf rest

/-- The failures of the strays in a statement. The ascription of a constant comes behind its
value. -/
def Statement.faults : Statement → List InternalError
  | .constant _ _ ascription initial => initial.faults ++ Ascription.faultsOf ascription
  | .returning _ none => []
  | .returning _ (some argument) => argument.faults
  | .stray stray => [stray.failure]

/-- The failures of the strays in several statements. -/
def Statement.faultsOf : List Statement → List InternalError
  | [] => []
  | statement :: rest => statement.faults ++ Statement.faultsOf rest

end

end Draft

/-! ## Trees as drafts -/

mutual

/-- An ascription as a draft without strays. -/
def Ascription.draft : Ascription → Draft.Ascription
  | .named offset name => .named offset name
  | .array offset element => .array offset element.draft
  | .function offset params result => .function offset (Parameter.drafts params) result.draft

/-- A parameter as a draft. -/
def Parameter.draft : Parameter → Draft.Parameter
  | { offset, name, ascription := some ascription, declaration } =>
    { offset, name, ascription := some ascription.draft, declaration }
  | { offset, name, ascription := none, declaration } =>
    { offset, name, ascription := none, declaration }

/-- Several parameters as drafts. -/
def Parameter.drafts : List Parameter → List Draft.Parameter
  | [] => []
  | param :: rest => param.draft :: Parameter.drafts rest

end

mutual

/-- An expression as a draft without strays. -/
def Expression.draft : Expression → Draft.Expression
  | .number offset value => .number offset value
  | .string offset value => .string offset value
  | .boolean offset value => .boolean offset value
  | .identifier identifier => .identifier identifier
  | .array offset elements => .array offset (Expression.drafts elements)
  | .member offset object index => .member offset object.draft index.draft
  | .binary offset left operator right => .binary offset left.draft operator right.draft
  | .conditional offset test consequent alternate =>
    .conditional offset test.draft consequent.draft alternate.draft
  | .arrow offset params result { offset := opening, statements } =>
    .arrow offset (Parameter.drafts params) (result.map Ascription.draft) opening
      (Statement.drafts statements)
  | .call offset callee arguments => .call offset callee.draft (Expression.drafts arguments)

/-- Several expressions as drafts. -/
def Expression.drafts : List Expression → List Draft.Expression
  | [] => []
  | expression :: rest => expression.draft :: Expression.drafts rest

/-- A statement as a draft without strays. A type that was found earlier takes no part in
the inference. -/
def Statement.draft : Statement → Draft.Statement
  | .constant offset id ascription initial _ =>
    .constant offset id (ascription.map Ascription.draft) initial.draft
  | .returning offset none _ => .returning offset none
  | .returning offset (some argument) _ => .returning offset (some argument.draft)

/-- Several statements as drafts. -/
def Statement.drafts : List Statement → List Draft.Statement
  | [] => []
  | statement :: rest => statement.draft :: Statement.drafts rest

end

end ArrowScript
