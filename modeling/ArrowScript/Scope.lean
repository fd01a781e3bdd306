import ArrowScript.Text.Quoted
import ArrowScript.Tree.View

/-!
# Scopes and declarations

Every function opens a scope inside the scope in which it stands; the program is the
outermost one. A scope lists the names declared in it, in the order of declaring,
and the scopes opened in it.

Declarations are kept in one table, numbered in the order in which they are made.
Scopes refer to them by number, so what is found out about a declaration after its
scope has been written down, namely its uses, is recorded in one place.
-/

namespace ArrowScript

/-- A declared name with the offsets of its uses, in the order in which they were
met. -/
structure Declaration where
  link : Link
  references : List Int := []
  deriving DecidableEq, Repr, Inhabited

/-- The names of one scope with the numbers of their declarations. -/
abbrev Names := List (String × Nat)

/-- A scope: the kind of node that opened it, its names, and the scopes inside it. -/
structure Scope where
  owner : Option NodeKind := none
  names : Names := []
  children : List Scope := []
  deriving Inhabited

/-- A tree of scopes together with the declarations that it refers to. -/
structure ScopeTree where
  root : Scope
  declarations : Array Declaration := #[]
  deriving Inhabited

namespace Scope

/-- The short description of a scope: its names and the number of scopes in it. -/
def describe (scope : Scope) : String :=
  let names := ", ".intercalate (scope.names.map fun entry => Text.quoted entry.1)
  s!"Scope([{names}], children={scope.children.length})"

end Scope

namespace Declaration

/-- The short description of a declaration. -/
def describe (declaration : Declaration) : String :=
  s!"Declaration({Text.quoted declaration.link.name}, {declaration.link.kind.node.name}, " ++
    s!"references={declaration.references.length})"

end Declaration

end ArrowScript
