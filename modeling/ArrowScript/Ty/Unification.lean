import ArrowScript.Problem
import ArrowScript.Ty.Store

/-!
# Unification

Unifying two terms links free variables so that both stand for the same type, as far
as that is possible. It never stops at a conflict: a conflict is reported, and the
parts around it are unified nevertheless.

Terms are compared part by part. Where one of them is a variable, the links are
followed first; a variable that is free then is linked to the other term, unless it
occurs in it.

On one path through both terms no variable is met twice on the same side, so twice
the number of variables bounds the depth at which links are followed.
-/

namespace ArrowScript.Solver

/-- Links a free variable to the end of a chain. A variable is already what it would
be linked to when that is the variable itself; inside another term it would make the
type infinite. -/
def bindVariable (free : VariableId) (term : Ty) : Solver (List Problem) := do
  match term with
  | .var other =>
    if other = free then return []
    else
      modify (·.setLink free term)
      return []
  | _ =>
    if ← occursIn free term then
      let left ← print (.var free)
      let right ← print term
      return [.infiniteType left right]
    else
      modify (·.setLink free term)
      return []

/-- Reports that two terms have different forms. -/
def mismatch (left right : Ty) : Solver (List Problem) := do
  let leftText ← print left
  let rightText ← print right
  return [.typeMismatch leftText rightText]

mutual

/-- Unifies two terms part by part, with an action for the places where one of them
is a variable. -/
def unifyParts (atVariable : Ty → Ty → Solver (List Problem)) :
    Ty → Ty → Solver (List Problem)
  | .var id, right => atVariable (.var id) right
  | left, .var id => atVariable left (.var id)
  | .array left, .array right => unifyParts atVariable left right
  | .function leftParams leftResult, .function rightParams rightResult => do
    if leftParams.length ≠ rightParams.length then
      return [.arityMismatch leftParams.length rightParams.length]
    let inParams ← unifyPairs atVariable leftParams rightParams
    let inResult ← unifyParts atVariable leftResult rightResult
    return inParams ++ inResult
  | .primitive left, .primitive right =>
    if left = right then return [] else mismatch (.primitive left) (.primitive right)
  | left, right => mismatch left right

/-- Unifies the terms of two lists pair by pair. -/
def unifyPairs (atVariable : Ty → Ty → Solver (List Problem)) :
    List Ty → List Ty → Solver (List Problem)
  | left :: leftRest, right :: rightRest => do
    let here ← unifyParts atVariable left right
    let further ← unifyPairs atVariable leftRest rightRest
    return here ++ further
  | _, _ => return []

end

/-- Unifies two terms of which one may be a linked variable. -/
def unifyWithin : (limit : Nat) → Ty → Ty → Solver (List Problem)
  | 0, _, _ => return []
  | limit + 1, left, right => do
    let left ← compress left
    let right ← compress right
    match left, right with
    | .var free, term => bindVariable free term
    | term, .var free => bindVariable free term
    | left, right => unifyParts (unifyWithin limit) left right

/-- Unifies two terms and answers with the conflicts, in the order in which they were
met. -/
def unify (left right : Ty) : Solver (List Problem) := do
  let limit := 2 * (← get).cells.size + 1
  unifyWithin limit left right

end ArrowScript.Solver
