/-!
# Type terms

A type term is a variable, a primitive, an array or a function. Variables are
numbered places of a store, which may link them to other terms; this module holds
what can be said of a term alone.

The printed form puts a function that is a parameter between parentheses, so the
arrows of a printed type can be read back without doubt.
-/

namespace ArrowScript

/-- The types without parts. `unknown` is the type of an empty program. -/
inductive Primitive where
  | number | float | bool | string | void | unknown
  deriving DecidableEq, Repr, Inhabited

namespace Primitive

/-- All primitives. -/
def all : List Primitive := [number, float, bool, string, void, unknown]

/-- The name of a primitive in a printed type. -/
def text : Primitive → String
  | number => "Number"
  | float => "Float"
  | bool => "Bool"
  | string => "String"
  | void => "Void"
  | unknown => "Unknown"

/-- The name under which a primitive is published on its own. -/
def tag : Primitive → String
  | number => "NUMBER"
  | float => "FLOAT"
  | bool => "BOOL"
  | string => "STRING"
  | void => "VOID"
  | unknown => "UNKNOWN"

/-- The primitive published under the given name. -/
def ofTag? (tag : String) : Option Primitive := all.find? (·.tag == tag)

/-- The primitive that a type name of the source denotes, if it denotes one. -/
def ofTypeName? : String → Option Primitive
  | "number" => some number
  | "string" => some string
  | "boolean" | "Bool" => some bool
  | "Float" => some float
  | "void" | "Void" | "Unit" => some void
  | _ => none

end Primitive

/-- The place of a type variable in its store. -/
abbrev VariableId := Nat

/-- A type term. A `shapeless` term is neither a variable nor of any form: nothing
that is constructed is compatible with it, not even itself. -/
inductive Ty where
  | var (id : VariableId)
  | primitive (kind : Primitive)
  | array (element : Ty)
  | function (params : List Ty) (result : Ty)
  | shapeless
  deriving Repr, Inhabited, BEq

namespace Ty

/-- Tells whether a term is a function at its root. -/
def isFunction : Ty → Bool
  | function _ _ => true
  | _ => false

mutual

/-- Replaces every variable of a term. -/
def substitute (replacement : VariableId → Ty) : Ty → Ty
  | var id => replacement id
  | primitive kind => primitive kind
  | array element => array (element.substitute replacement)
  | function params result =>
    function (substituteAll replacement params) (result.substitute replacement)
  | shapeless => shapeless

/-- Replaces every variable of several terms. -/
def substituteAll (replacement : VariableId → Ty) : List Ty → List Ty
  | [] => []
  | term :: rest => term.substitute replacement :: substituteAll replacement rest

end

mutual

/-- Replaces every variable of a term by an action, from left to right. -/
def traverse {m : Type → Type} [Monad m] (atVariable : VariableId → m Ty) : Ty → m Ty
  | var id => atVariable id
  | primitive kind => pure (primitive kind)
  | array element => do
    let element ← element.traverse atVariable
    pure (array element)
  | function params result => do
    let params ← traverseAll atVariable params
    let result ← result.traverse atVariable
    pure (function params result)
  | shapeless => pure shapeless

/-- Replaces every variable of several terms by an action, from left to right. -/
def traverseAll {m : Type → Type} [Monad m] (atVariable : VariableId → m Ty) :
    List Ty → m (List Ty)
  | [] => pure []
  | term :: rest => do
    let term ← term.traverse atVariable
    let rest ← traverseAll atVariable rest
    pure (term :: rest)

end

mutual

/-- Tests the variables of a term from left to right, up to the first success. -/
def anyVariable {m : Type → Type} [Monad m] (test : VariableId → m Bool) : Ty → m Bool
  | var id => test id
  | primitive _ => pure false
  | array element => element.anyVariable test
  | function params result => do
    if ← anyVariableOf test params then pure true else result.anyVariable test
  | shapeless => pure false

/-- Tests the variables of several terms from left to right, up to the first success. -/
def anyVariableOf {m : Type → Type} [Monad m] (test : VariableId → m Bool) : List Ty → m Bool
  | [] => pure false
  | term :: rest => do
    if ← term.anyVariable test then pure true else anyVariableOf test rest

end

mutual

/-- The printed form of a term, given the names of its variables. -/
def render (variableName : VariableId → String) : Ty → String
  | var id => variableName id
  | primitive kind => kind.text
  | array element => "Array<" ++ element.render variableName ++ ">"
  | function params result =>
    "(" ++ ", ".intercalate (renderParams variableName params) ++ ") -> " ++
      result.render variableName
  | shapeless => "<unknown>"

/-- The printed parameters of a function. -/
def renderParams (variableName : VariableId → String) : List Ty → List String
  | [] => []
  | param :: rest =>
    (if param.isFunction then "(" ++ param.render variableName ++ ")"
      else param.render variableName) :: renderParams variableName rest

end

/-- The name of a variable that was made without a name of its own. -/
def defaultName (id : VariableId) : String := "t" ++ toString id

/-- The printed form of a term whose variables have their default names. -/
def text (term : Ty) : String := term.render defaultName

end Ty

end ArrowScript
