import ArrowScript.Text.Quoted
import ArrowScript.Tree.View

/-!
# Structural comparison of trees

Two trees are compared by what they say, not by where they say it: offsets, inferred
types and links do not count. The comparison goes depth first through the fields and
answers with the first difference: a place where the kinds differ, where lists have
different lengths, or where values differ. An integer and a floating-point number
are of different kinds even when they are numerically equal.
-/

namespace ArrowScript

/-- The ways in which two places of a tree differ. -/
inductive Mismatch where
  | kinds (expected found : String)
  | lengths (expected found : Nat)
  | values (expected found : String)
  deriving DecidableEq, Repr

/-- A mismatch at a place, which is given as a path of fields and indices. -/
structure Difference where
  path : String
  mismatch : Mismatch
  deriving DecidableEq, Repr

/-- The report of a difference. -/
def Difference.message (difference : Difference) : String :=
  difference.path ++ ": " ++ match difference.mismatch with
    | .kinds expected found => s!"expected {expected} but got {found}"
    | .lengths expected found => s!"expected {expected} items but got {found}"
    | .values expected found => s!"expected {expected} but got {found}"

/-- Numeric equality of words: the zeros are equal, and a non-number equals nothing. -/
def Binary64.equal (left right : Binary64) : Bool :=
  let isNumber (word : Binary64) : Bool := word.finite || word.fraction == 0
  let isZero (word : Binary64) : Bool := word.finite && word.significand == 0
  isNumber left && isNumber right && (left == right || (isZero left && isZero right))

namespace View

/-- The name of the kind of thing that a view shows. -/
def kindName : View → String
  | node kind _ _ _ => kind.name
  | list _ => "list"
  | text _ => "str"
  | number (.int _) => "int"
  | number (.float _) => "float"
  | boolean _ => "bool"
  | absent => "NoneType"

mutual

/-- The first difference between a view that was found and the expected one. -/
def differenceAt (path : String) : View → View → Option Difference
  | node foundKind _ _ found, node expectedKind _ _ expected =>
    if foundKind = expectedKind then fieldDifference path found expected
    else some ⟨path, .kinds expectedKind.name foundKind.name⟩
  | list found, list expected =>
    if found.length = expected.length then itemDifference path 0 found expected
    else some ⟨path, .lengths expected.length found.length⟩
  | text found, text expected =>
    if found = expected then none
    else some ⟨path, .values (Text.quoted expected) (Text.quoted found)⟩
  | number (.int found), number (.int expected) =>
    if found = expected then none
    else some ⟨path, .values (toString expected) (toString found)⟩
  | number (.float found), number (.float expected) =>
    if found.equal expected then none else some ⟨path, .values expected.text found.text⟩
  | boolean found, boolean expected =>
    if found = expected then none
    else some ⟨path, .values (Value.boolean expected).display (Value.boolean found).display⟩
  | absent, absent => none
  | found, expected => some ⟨path, .kinds expected.kindName found.kindName⟩

/-- The first difference among fields of nodes of one kind. -/
def fieldDifference (path : String) :
    List (String × View) → List (String × View) → Option Difference
  | (name, found) :: foundRest, (_, expected) :: expectedRest =>
    (differenceAt (path ++ "." ++ name) found expected).orElse fun _ =>
      fieldDifference path foundRest expectedRest
  | _, _ => none

/-- The first difference among the items of lists of one length. -/
def itemDifference (path : String) (index : Nat) : List View → List View → Option Difference
  | found :: foundRest, expected :: expectedRest =>
    (differenceAt (path ++ "[" ++ toString index ++ "]") found expected).orElse fun _ =>
      itemDifference path (index + 1) foundRest expectedRest
  | _, _ => none

end

end View

/-- The first difference between two nodes, if they do not say the same. -/
def Node.difference? (found expected : Node) : Option Difference :=
  found.view.differenceAt expected.kind.name expected.view

end ArrowScript
