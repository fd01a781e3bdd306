import Mathlib.Data.List.Forall2
import ArrowScript.Proofs.Ty.Substitution
import ArrowScript.Ty.Inference

/-!
# The type system

The types of a program, apart from any way to find them. A judgement relates a part of
a tree to the same part with the types of its statements filled in, and to its type.
Type terms are used as types here; their variables stand for any types.

Parameters have one type in their function. A constant has a type scheme: its type may
be used with other types for its variables, except for those that occur in the types of
the parameters around the declaration.
-/

namespace ArrowScript

/-! ## Ascriptions -/

mutual

/-- The types that an ascription denotes. A name that is no built-in type denotes any
type, and at each place another one. -/
inductive Ascription.Denotes : Ascription → Ty → Prop
  | builtIn (offset : Int) {name : String} {kind : Primitive}
    (named : Primitive.ofTypeName? name = some kind) :
    Ascription.Denotes (.named offset name) (.primitive kind)
  | other (offset : Int) {name : String} (unknown : Primitive.ofTypeName? name = none)
    (type : Ty) : Ascription.Denotes (.named offset name) type
  | array (offset : Int) {element : Ascription} {type : Ty}
    (denotes : Ascription.Denotes element type) :
    Ascription.Denotes (.array offset element) (.array type)
  | function (offset : Int) {params : List Parameter} {result : Ascription} {types : List Ty}
    {type : Ty} (paramsDenote : Parameter.DenoteAll params types)
    (denotes : Ascription.Denotes result type) :
    Ascription.Denotes (.function offset params result) (.function types type)

/-- The types that a parameter can have: any without an ascription. -/
inductive Parameter.Denotes : Parameter → Ty → Prop
  | free (offset : Int) (name : String) (declaration : Option Link) (type : Ty) :
    Parameter.Denotes { offset, name, declaration } type
  | ascribed (offset : Int) (name : String) (declaration : Option Link)
    {ascription : Ascription} {type : Ty} (denotes : Ascription.Denotes ascription type) :
    Parameter.Denotes { offset, name, ascription := some ascription, declaration } type

/-- The types that several parameters can have. -/
inductive Parameter.DenoteAll : List Parameter → List Ty → Prop
  | nil : Parameter.DenoteAll [] []
  | cons {param : Parameter} {params : List Parameter} {type : Ty} {types : List Ty}
    (first : Parameter.Denotes param type) (rest : Parameter.DenoteAll params types) :
    Parameter.DenoteAll (param :: params) (type :: types)

end

mutual

/-- An ascription denotes a type also with other types for its variables. -/
theorem Ascription.Denotes.substitute {ascription : Ascription} {type : Ty}
    (denotes : ascription.Denotes type) (replacement : VariableId → Ty) :
    ascription.Denotes (type.substitute replacement) := by
  cases denotes with
  | builtIn offset named => exact .builtIn offset named
  | other offset unknown => exact .other offset unknown _
  | array offset element => exact .array offset (element.substitute replacement)
  | function offset params result =>
    have paramsDenote := params.substitute replacement
    rw [Ty.substitute, Ty.substituteAll_eq_map]
    exact .function offset paramsDenote (result.substitute replacement)

/-- A parameter can have a type also with other types for its variables. -/
theorem Parameter.Denotes.substitute {param : Parameter} {type : Ty}
    (denotes : param.Denotes type) (replacement : VariableId → Ty) :
    param.Denotes (type.substitute replacement) := by
  cases denotes with
  | free offset name declaration => exact .free offset name declaration _
  | ascribed offset name declaration ascribed =>
    exact .ascribed offset name declaration (ascribed.substitute replacement)

/-- Several parameters can have types also with other types for their variables. -/
theorem Parameter.DenoteAll.substitute {params : List Parameter} {types : List Ty}
    (denotes : Parameter.DenoteAll params types) (replacement : VariableId → Ty) :
    Parameter.DenoteAll params (types.map (·.substitute replacement)) := by
  cases denotes with
  | nil => exact .nil
  | cons first rest => exact .cons (first.substitute replacement) (rest.substitute replacement)

end

/-! ## Type schemes -/

/-- A type whose variables may be replaced, except for the fixed ones. -/
structure Scheme where
  type : Ty
  fixed : List VariableId

namespace Scheme

/-- The types with which a scheme can be used. -/
def Instance (scheme : Scheme) (type : Ty) : Prop :=
  ∃ replacement : VariableId → Ty, (∀ id ∈ scheme.fixed, replacement id = .var id) ∧
    type = scheme.type.substitute replacement

/-- The scheme of a parameter: it has its one type. -/
def monomorphic (type : Ty) : Scheme := { type, fixed := type.vars }

/-- The scheme of a constant: it is general in all variables that do not occur in the
types of the parameters around it. -/
def generalised (params : List Ty) (type : Ty) : Scheme :=
  { type, fixed := Ty.varsOf params }

/-- A parameter can only be used with its own type. -/
theorem instance_monomorphic {type used : Ty} :
    (monomorphic type).Instance used ↔ used = type := by
  constructor
  · rintro ⟨replacement, fixed, rfl⟩
    exact (Ty.substitute_congr fixed).trans (Ty.substitute_var type)
  · rintro rfl
    exact ⟨.var, fun _ _ => rfl, (Ty.substitute_var used).symm⟩

end Scheme

/-- The schemes of the names in scope, innermost first. -/
abbrev Context := List (String × Scheme)

/-- Binds the names of parameters to their types, from left to right. -/
def bindEach {α : Type} (entry : Ty → α) :
    List (String × α) → List Parameter → List Ty → List (String × α)
  | bound, param :: params, type :: types =>
    bindEach entry ((param.name, entry type) :: bound) params types
  | bound, _, _ => bound

/-- The context inside a function: each of its parameters has its one type. -/
def Context.withParameters (context : Context) (params : List Parameter) (types : List Ty) :
    Context :=
  bindEach .monomorphic context params types

namespace Context

variable {holds also : Ty → Scheme → Prop} {environment : List (String × Ty)} {context : Context}

/-- A context describes an environment when both bind the same names in the same order,
and a relation holds between the types and the schemes that they are bound to. -/
def Describes (holds : Ty → Scheme → Prop) (environment : List (String × Ty))
    (context : Context) : Prop :=
  List.Forall₂ (fun entry named => entry.1 = named.1 ∧ holds entry.2 named.2) environment context

/-- A name is found in an environment exactly when it is found in its context. -/
theorem Describes.lookup (describes : Describes holds environment context) (name : String) :
    (environment.lookup name = none ∧ context.lookup name = none) ∨
      ∃ type scheme, environment.lookup name = some type ∧
        context.lookup name = some scheme ∧ holds type scheme := by
  induction describes with
  | nil => exact .inl ⟨rfl, rfl⟩
  | @cons entry named _ _ same _ inductionHypothesis =>
    rw [List.lookup_cons, List.lookup_cons, ← same.1]
    cases name == entry.1 with
    | true => exact .inr ⟨entry.2, named.2, rfl, rfl, same.2⟩
    | false => exact inductionHypothesis

/-- Another relation holds when it follows for the types of the environment. -/
theorem Describes.imp (describes : Describes holds environment context)
    (implies : ∀ entry ∈ environment, ∀ scheme, holds entry.2 scheme → also entry.2 scheme) :
    Describes also environment context := by
  refine ((List.forall₂_and_left _ _).mpr ⟨implies, describes⟩).imp ?_
  rintro entry named ⟨follows, name, held⟩
  exact ⟨name, follows named.2 held⟩

/-- One more name is bound on both sides. -/
theorem Describes.bind (describes : Describes holds environment context) (name : String)
    {type : Ty} {scheme : Scheme} (held : holds type scheme) :
    Describes holds ((name, type) :: environment) ((name, scheme) :: context) :=
  .cons ⟨rfl, held⟩ describes

/-- The parameters of a function are bound on both sides. -/
theorem Describes.bindEach (describes : Describes holds environment context)
    (params : List Parameter) {types : List Ty} (image : Ty → Ty)
    (held : ∀ type ∈ types, holds type (.monomorphic (image type))) :
    Describes holds (ArrowScript.bindEach id environment params types)
      (context.withParameters params (types.map image)) := by
  induction params generalizing environment context types with
  | nil => exact describes
  | cons param rest inductionHypothesis =>
    cases types with
    | nil => exact describes
    | cons type others =>
      rw [List.forall_mem_cons] at held
      exact inductionHypothesis (describes.bind param.name held.1) held.2

end Context

/-! ## Judgements -/

/-- The type that a function with the given typed body returns: that of its return
statements, or `Void` if it has none. -/
def Returns (body : List Statement) (type : Ty) : Prop :=
  (∀ statement ∈ body, statement.isReturn = true → statement.inferred = some type) ∧
    ((∀ statement ∈ body, statement.isReturn = false) → type = .primitive .void)

mutual

/-- An expression has a type in a context, inside functions with the given parameter
types. The second expression is the first with the types of its statements. -/
inductive ExpressionTyping :
    Context → List Ty → Expression → Expression → Ty → Prop
  | number (context : Context) (around : List Ty) (offset : Int) (value : Numeral) :
    ExpressionTyping context around (.number offset value) (.number offset value)
      (Inferrer.numeralType value)
  | string (context : Context) (around : List Ty) (offset : Int) (value : String) :
    ExpressionTyping context around (.string offset value) (.string offset value)
      (.primitive .string)
  | boolean (context : Context) (around : List Ty) (offset : Int) (value : Bool) :
    ExpressionTyping context around (.boolean offset value) (.boolean offset value)
      (.primitive .bool)
  | identifier {context : Context} (around : List Ty) {identifier : Identifier}
    {scheme : Scheme} {type : Ty} (bound : context.lookup identifier.name = some scheme)
    (used : scheme.Instance type) :
    ExpressionTyping context around (.identifier identifier) (.identifier identifier) type
  | array {context : Context} {around : List Ty} (offset : Int)
    {elements typed : List Expression} {element : Ty}
    (elementsTyping : ElementsTyping context around elements typed element) :
    ExpressionTyping context around (.array offset elements) (.array offset typed)
      (.array element)
  | member {context : Context} {around : List Ty} (offset : Int)
    {object typedObject index typedIndex : Expression} {element : Ty}
    (objectTyping : ExpressionTyping context around object typedObject (.array element))
    (indexTyping : ExpressionTyping context around index typedIndex (.primitive .number)) :
    ExpressionTyping context around (.member offset object index)
      (.member offset typedObject typedIndex) element
  | sum {context : Context} {around : List Ty} (offset : Int)
    {left typedLeft right typedRight : Expression} {kind : Primitive}
    (additive : kind = .number ∨ kind = .float ∨ kind = .string)
    (leftTyping : ExpressionTyping context around left typedLeft (.primitive kind))
    (rightTyping : ExpressionTyping context around right typedRight (.primitive kind)) :
    ExpressionTyping context around (.binary offset left "+" right)
      (.binary offset typedLeft "+" typedRight) (.primitive kind)
  | conditional {context : Context} {around : List Ty} (offset : Int)
    {test typedTest consequent typedConsequent alternate typedAlternate : Expression} {type : Ty}
    (testTyping : ExpressionTyping context around test typedTest (.primitive .bool))
    (consequentTyping : ExpressionTyping context around consequent typedConsequent type)
    (alternateTyping : ExpressionTyping context around alternate typedAlternate type) :
    ExpressionTyping context around (.conditional offset test consequent alternate)
      (.conditional offset typedTest typedConsequent typedAlternate) type
  | arrow {context : Context} {around : List Ty} (offset opening : Int)
    {params : List Parameter} {result : Option Ascription} {statements typed : List Statement}
    {types : List Ty} {type : Ty} (paramsDenote : Parameter.DenoteAll params types)
    (bodyTyping : StatementsTyping (context.withParameters params types) (around ++ types)
      statements typed)
    (returns : Returns typed type)
    (resultDenotes : ∀ ascription, result = some ascription → ascription.Denotes type) :
    ExpressionTyping context around
      (.arrow offset params result { offset := opening, statements })
      (.arrow offset params result { offset := opening, statements := typed })
      (.function types type)
  | call {context : Context} {around : List Ty} (offset : Int)
    {callee typedCallee : Expression} {arguments typedArguments : List Expression}
    {types : List Ty} {type : Ty}
    (calleeTyping : ExpressionTyping context around callee typedCallee (.function types type))
    (argumentsTyping : ArgumentsTyping context around arguments typedArguments types) :
    ExpressionTyping context around (.call offset callee arguments)
      (.call offset typedCallee typedArguments) type

/-- Several expressions have one type. -/
inductive ElementsTyping :
    Context → List Ty → List Expression → List Expression → Ty → Prop
  | nil (context : Context) (around : List Ty) (type : Ty) :
    ElementsTyping context around [] [] type
  | cons {context : Context} {around : List Ty} {first typedFirst : Expression}
    {rest typedRest : List Expression} {type : Ty}
    (firstTyping : ExpressionTyping context around first typedFirst type)
    (restTyping : ElementsTyping context around rest typedRest type) :
    ElementsTyping context around (first :: rest) (typedFirst :: typedRest) type

/-- Several expressions each have a type of their own. -/
inductive ArgumentsTyping :
    Context → List Ty → List Expression → List Expression → List Ty → Prop
  | nil (context : Context) (around : List Ty) : ArgumentsTyping context around [] [] []
  | cons {context : Context} {around : List Ty} {first typedFirst : Expression}
    {rest typedRest : List Expression} {type : Ty} {types : List Ty}
    (firstTyping : ExpressionTyping context around first typedFirst type)
    (restTyping : ArgumentsTyping context around rest typedRest types) :
    ArgumentsTyping context around (first :: rest) (typedFirst :: typedRest) (type :: types)

/-- Statements are well-typed one after the other. A constant is in scope behind its
declaration, with the scheme of the type that is recorded for it. -/
inductive StatementsTyping :
    Context → List Ty → List Statement → List Statement → Prop
  | nil (context : Context) (around : List Ty) : StatementsTyping context around [] []
  | constant {context : Context} {around : List Ty} (offset : Int) {id : Identifier}
    {ascription : Option Ascription} {initial typedInitial : Expression} (earlier : Option Ty)
    {rest typedRest : List Statement} {type : Ty}
    (initialTyping : ExpressionTyping context around initial typedInitial type)
    (denotes : ∀ written, ascription = some written → written.Denotes type)
    (restTyping : StatementsTyping ((id.name, .generalised around type) :: context) around
      rest typedRest) :
    StatementsTyping context around
      (.constant offset id ascription initial earlier :: rest)
      (.constant offset id ascription typedInitial (some type) :: typedRest)
  | returning {context : Context} {around : List Ty} (offset : Int)
    {argument typedArgument : Expression} (earlier : Option Ty)
    {rest typedRest : List Statement} {type : Ty}
    (argumentTyping : ExpressionTyping context around argument typedArgument type)
    (restTyping : StatementsTyping context around rest typedRest) :
    StatementsTyping context around (.returning offset (some argument) earlier :: rest)
      (.returning offset (some typedArgument) (some type) :: typedRest)
  | leaving {context : Context} {around : List Ty} (offset : Int) (earlier : Option Ty)
    {rest typedRest : List Statement}
    (restTyping : StatementsTyping context around rest typedRest) :
    StatementsTyping context around (.returning offset none earlier :: rest)
      (.returning offset none (some (.primitive .void)) :: typedRest)

end

end ArrowScript
