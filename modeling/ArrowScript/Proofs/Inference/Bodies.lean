import ArrowScript.Proofs.Inference.Trees
import ArrowScript.Proofs.Scope.Propriety

/-!
# Bodies

What the walk over the statements of a body answers with, statement by statement: the
statements keep their kinds, and carry the types that are found for them. A body in which
only the last statement may be a return has the type of that return.
-/

namespace ArrowScript.Inferrer

variable {inference after : Inference}

/-- The walk over two bodies, one behind the other. -/
theorem inferStatements_append (first rest : List Statement) (inference : Inference) :
    (inferStatements (first ++ rest)).run inference =
      let head := (inferStatements first).run inference
      let tail := (inferStatements rest).run head.2
      (head.1 ++ tail.1, tail.2) := by
  induction first generalizing inference with
  | nil => rfl
  | cons statement others inductionHypothesis =>
    simp only [List.cons_append, inferStatements_cons, inductionHypothesis]

/-- The walk over a statement keeps its kind and fills in the type that it answers with. -/
theorem inferStatement_filled {statement typed : Statement} {type : Ty}
    (ran : (inferStatement statement).run inference = ((typed, type), after)) :
    typed.isReturn = statement.isReturn ∧ typed.inferred = some type := by
  match statement with
  | .constant offset id ascription initial earlier =>
    rw [inferStatement_constant] at ran
    obtain ⟨rfl, rfl⟩ := Prod.mk.inj (Prod.mk.inj ran).1
    exact ⟨rfl, rfl⟩
  | .returning offset none earlier =>
    obtain ⟨rfl, rfl⟩ := Prod.mk.inj (Prod.mk.inj ran).1
    exact ⟨rfl, rfl⟩
  | .returning offset (some argument) earlier =>
    rw [inferStatement_returning] at ran
    obtain ⟨rfl, rfl⟩ := Prod.mk.inj (Prod.mk.inj ran).1
    exact ⟨rfl, rfl⟩

/-- The walk over statements keeps their kinds and fills in the types that it answers
with. -/
theorem inferStatements_filled {statements : List Statement} {inferred : List (Statement × Ty)}
    (ran : (inferStatements statements).run inference = (inferred, after)) :
    (inferred.map (·.1)).map Statement.isReturn = statements.map Statement.isReturn ∧
      ∀ pair ∈ inferred, pair.1.inferred = some pair.2 := by
  induction statements generalizing inference inferred after with
  | nil =>
    obtain ⟨rfl, -⟩ := Prod.mk.inj ran
    exact ⟨rfl, by simp⟩
  | cons first rest inductionHypothesis =>
    rcases headRan : (inferStatement first).run inference with ⟨⟨typed, type⟩, between⟩
    rcases restRan : (inferStatements rest).run between with ⟨others, last⟩
    simp only [inferStatements_cons, headRan, restRan] at ran
    obtain ⟨rfl, rfl⟩ := Prod.mk.inj ran
    obtain ⟨isReturn, filled⟩ := inferStatement_filled headRan
    obtain ⟨same, further⟩ := inductionHypothesis restRan
    refine ⟨?_, List.forall_mem_cons.mpr ⟨filled, further⟩⟩
    rw [List.map_cons, List.map_cons, List.map_cons, isReturn, same]

/-- Changing the types that a statement carries keeps its kind. -/
theorem isReturn_mapTypes (change : Ty → Ty) (statement : Statement) :
    (statement.mapTypes change).isReturn = statement.isReturn := by
  cases statement with
  | constant => rfl
  | returning _ argument _ => cases argument <;> rfl

/-- The type that a statement carries is changed. -/
theorem inferred_mapTypes (change : Ty → Ty) (statement : Statement) :
    (statement.mapTypes change).inferred = statement.inferred.map change := by
  cases statement with
  | constant => rfl
  | returning _ argument _ => cases argument <;> rfl

/-- Changing the types of several statements changes those of each. -/
theorem mapTypesAll_eq_map (change : Ty → Ty) (statements : List Statement) :
    Statement.mapTypesAll change statements = statements.map (·.mapTypes change) := by
  induction statements with
  | nil => rfl
  | cons first rest inductionHypothesis =>
    rw [Statement.mapTypesAll, inductionHypothesis, List.map_cons]

/-- Changing the types of two bodies, one behind the other. -/
theorem mapTypesAll_append (change : Ty → Ty) (statements more : List Statement) :
    Statement.mapTypesAll change (statements ++ more) =
      Statement.mapTypesAll change statements ++ Statement.mapTypesAll change more := by
  rw [mapTypesAll_eq_map, mapTypesAll_eq_map, mapTypesAll_eq_map, List.map_append]

/-- The types of the returns in a body. -/
def returnTypes (body : List (Statement × Ty)) : List Ty :=
  (body.filter (·.1.isReturn)).map (·.2)

/-- The types of the returns are among all types of a body. -/
theorem returnTypes_subset (body : List (Statement × Ty)) :
    Ty.varsOf (returnTypes body) ⊆ Ty.varsOf (body.map (·.2)) := by
  intro id member
  obtain ⟨type, isReturned, occurs⟩ := Ty.mem_varsOf.mp member
  obtain ⟨pair, isPair, rfl⟩ := List.mem_map.mp isReturned
  exact Ty.mem_varsOf.mpr
    ⟨pair.2, List.mem_map_of_mem (List.mem_of_mem_filter isPair), occurs⟩

/-- A return at the beginning of a body gives it its type. -/
theorem returnedType_cons (pair : Statement × Ty) (rest : List (Statement × Ty)) :
    returnedType (pair :: rest) = if pair.1.isReturn then pair.2 else returnedType rest := by
  rw [returnedType, List.find?_cons]
  cases pair.1.isReturn <;> rfl

/-- A body returns the type of a return, or nothing. -/
theorem returnedType_vars (body : List (Statement × Ty)) :
    (returnedType body).vars ⊆ Ty.varsOf (returnTypes body) := by
  intro id occurs
  rw [returnedType] at occurs
  cases found : body.find? (·.1.isReturn) with
  | none => simp [found] at occurs
  | some pair =>
    rw [found] at occurs
    have isReturn := List.find?_some found
    have filtered : pair ∈ body.filter (·.1.isReturn) :=
      List.mem_filter.mpr ⟨List.mem_of_find?_eq_some found, isReturn⟩
    exact Ty.mem_varsOf.mpr ⟨pair.2, List.mem_map_of_mem filtered, occurs⟩

/-- A return in a body in which only the last statement may be one is found first. -/
theorem returnedType_eq {body : List (Statement × Ty)} (last : ReturnsLast (body.map (·.1)))
    {pair : Statement × Ty} (member : pair ∈ body) (isReturn : pair.1.isReturn = true) :
    returnedType body = pair.2 := by
  have isLast (other : Statement × Ty) (isOther : other ∈ body)
      (otherReturn : other.1.isReturn = true) : body.getLast? = some other := by
    have nonempty : body ≠ [] := List.ne_nil_of_mem isOther
    rw [List.getLast?_eq_some_getLast nonempty, Option.some.injEq]
    rw [← List.dropLast_append_getLast nonempty, List.mem_append] at isOther
    rcases isOther with earlier | final
    · have inDropped : other.1 ∈ (body.map (·.1)).dropLast := by
        rw [← List.map_dropLast]
        exact List.mem_map_of_mem earlier
      exact absurd otherReturn (by simp [last other.1 inDropped])
    · exact (List.mem_singleton.mp final).symm
  rw [returnedType]
  cases found : body.find? (·.1.isReturn) with
  | none => exact absurd isReturn (List.find?_eq_none.mp found pair member)
  | some first =>
    have firstReturn := List.find?_some found
    have firstLast := isLast first (List.mem_of_find?_eq_some found) firstReturn
    obtain rfl : first = pair :=
      Option.some.inj (firstLast.symm.trans (isLast pair member isReturn))
    rfl

/-- A body in which only the last statement may be a return returns its type. -/
theorem returns_mapTypes {body : List (Statement × Ty)} (last : ReturnsLast (body.map (·.1)))
    (filled : ∀ pair ∈ body, pair.1.inferred = some pair.2) (change : Ty → Ty)
    (constant : change (.primitive .void) = .primitive .void) :
    Returns (Statement.mapTypesAll change (body.map (·.1))) (change (returnedType body)) := by
  rw [mapTypesAll_eq_map, Returns]
  constructor
  · intro statement member isReturn
    obtain ⟨_, isTyped, rfl⟩ := List.mem_map.mp member
    obtain ⟨pair, isPair, rfl⟩ := List.mem_map.mp isTyped
    rw [isReturn_mapTypes] at isReturn
    rw [inferred_mapTypes, filled pair isPair, returnedType_eq last isPair isReturn]
    rfl
  · intro without
    have absent : body.find? (·.1.isReturn) = none := by
      rw [List.find?_eq_none]
      intro pair isPair
      have mapped : pair.1.mapTypes change ∈ (body.map (·.1)).map (·.mapTypes change) :=
        List.mem_map_of_mem (List.mem_map_of_mem isPair)
      rw [← isReturn_mapTypes change, without _ mapped]
      exact Bool.false_ne_true
    rw [returnedType, absent]
    exact constant

end ArrowScript.Inferrer
