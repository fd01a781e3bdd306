import ArrowScript.Ty
import ArrowScript.Value

/-!
# The abstract syntax tree

A program is a list of statements, each of them a constant declaration or a return.
Expressions contain statements again, since an arrow function has a body. Every node
records the offset of its first token.

The tree has two kinds of slots for what analyses find out: an identifier or a
parameter can be linked to the declaration that it refers to or makes, and a
statement can be given its type. A tree that comes from the parser has them empty.
-/

namespace ArrowScript

/-- The two kinds of nodes that declare a name. -/
inductive DeclarationKind where
  | constant
  | parameter
  deriving DecidableEq, Repr, Inhabited

/-- The identity of a declaration: its number in the order of declaring, with its
name, its kind and the offset of the node that declares it. -/
structure Link where
  number : Nat
  name : String
  kind : DeclarationKind
  offset : Int
  deriving DecidableEq, Repr, Inhabited

/-- A name that stands for a value, either where it is used or where it is declared. -/
structure Identifier where
  offset : Int
  name : String
  declaration : Option Link := none
  deriving DecidableEq, Repr, Inhabited

mutual

/-- An ascription: a type as it is written in the source. -/
inductive Ascription where
  | named (offset : Int) (name : String)
  | array (offset : Int) (element : Ascription)
  | function (offset : Int) (params : List Parameter) (result : Ascription)
  deriving Inhabited

/-- A parameter of a function or of a function type. -/
structure Parameter where
  offset : Int
  name : String
  ascription : Option Ascription := none
  declaration : Option Link := none
  deriving Inhabited

end

mutual

/-- An expression. -/
inductive Expression where
  | number (offset : Int) (value : Numeral)
  | string (offset : Int) (value : String)
  | boolean (offset : Int) (value : Bool)
  | identifier (identifier : Identifier)
  | array (offset : Int) (elements : List Expression)
  | member (offset : Int) (object index : Expression)
  | binary (offset : Int) (left : Expression) (operator : String) (right : Expression)
  | conditional (offset : Int) (test consequent alternate : Expression)
  | arrow (offset : Int) (params : List Parameter) (result : Option Ascription) (body : Block)
  | call (offset : Int) (callee : Expression) (arguments : List Expression)
  deriving Inhabited

/-- A statement with the type that inference has found for it. -/
inductive Statement where
  | constant (offset : Int) (id : Identifier) (ascription : Option Ascription)
      (initial : Expression) (inferred : Option Ty := none)
  | returning (offset : Int) (argument : Option Expression) (inferred : Option Ty := none)
  deriving Inhabited

/-- The statements between the braces of a function body. -/
structure Block where
  offset : Int
  statements : List Statement
  deriving Inhabited

end

/-- The root of a tree, with the top-level statements in the order of the source. -/
structure Program where
  offset : Int := 0
  body : List Statement
  deriving Inhabited

namespace Ascription

/-- The offset of the first token of an ascription. -/
def offset : Ascription → Int
  | named offset _ | array offset _ | function offset _ _ => offset

end Ascription

namespace Expression

/-- The offset of an expression. -/
def offset : Expression → Int
  | number offset _ | string offset _ | boolean offset _ | array offset _ | member offset _ _
  | binary offset _ _ _ | conditional offset _ _ _ | arrow offset _ _ _ | call offset _ _ => offset
  | .identifier use => use.offset

end Expression

namespace Statement

/-- The offset of the keyword that begins a statement. -/
def offset : Statement → Int
  | constant offset _ _ _ _ | returning offset _ _ => offset

/-- Tells whether a statement is a return. -/
def isReturn : Statement → Bool
  | returning _ _ _ => true
  | constant _ _ _ _ _ => false

/-- The type found for a statement, once there is one. -/
def inferred : Statement → Option Ty
  | constant _ _ _ _ inferred | returning _ _ inferred => inferred

end Statement

end ArrowScript
