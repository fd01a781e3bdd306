import ArrowScript.Ty.Store

/-!
# Instances of types

A type is used anew each time by replacing its generic variables with fresh ones. A
free variable is generic unless it occurs in one of the types that are still being
determined. Within one instance, and within several that share a renaming, a variable
is replaced by the same fresh variable everywhere.
-/

namespace ArrowScript

/-- The fresh variables that stand for generic ones. -/
abbrev Renaming := List (VariableId × VariableId)

namespace Solver

/-- Tells whether a variable occurs in none of the types still being determined. -/
def isGeneric (undetermined : List Ty) (id : VariableId) : Solver Bool :=
  match undetermined with
  | [] => return true
  | term :: rest => do
    if ← occursIn id term then return false else isGeneric rest id

/-- The fresh variable for a generic one. One that is not generic stays itself. -/
def renameFree (undetermined : List Ty) (id : VariableId) : StateT Renaming Solver Ty := do
  if ← (isGeneric undetermined id : Solver Bool) then
    match (← get).lookup id with
    | some renamed => return .var renamed
    | none =>
      let renamed ← (fresh : Solver VariableId)
      modify ((id, renamed) :: ·)
      return .var renamed
  else return .var id

/-- An instance of a type that shares a renaming with others. -/
def sharedInstance (undetermined : List Ty) (term : Ty) : StateT Renaming Solver Ty :=
  expand (renameFree undetermined) term

/-- An instance of a type. -/
def freshInstance (undetermined : List Ty) (term : Ty) : Solver Ty :=
  (sharedInstance undetermined term).run' []

end Solver

end ArrowScript
