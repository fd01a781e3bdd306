import ArrowScript.Proofs.Inference.Bodies
import ArrowScript.Proofs.Inference.Interpretation

/-!
# Soundness

Where the analyses of a program have nothing to report, the types that inference has
left on the tree form a derivation of the type system. The derivation is put together
rule by rule: for each form of expression and statement it is shown that what its walk
finds is derived, if what the walks over its parts find is.
-/

namespace ArrowScript

namespace Inferrer

open Store

variable {final : Store}

/-- What the walk over an expression finds without a problem is a type of the expression. -/
def Derivable (final : Store) (expression : Expression) : Prop :=
  ∀ ⦃inference after : Inference⦄ ⦃context : Context⦄ ⦃params pending : List VariableId⦄
    ⦃names : List String⦄ ⦃around : List Ty⦄,
    Interpretation final inference params pending names context around →
    expression.Proper names → ∀ ⦃typed : Expression⦄ ⦃type : Ty⦄,
      (inferExpression expression).run inference = ((typed, type), after) →
      after.diagnostics = [] →
      Framed after.store final (params ++ (pending ++ type.vars)) [] →
      ExpressionTyping context around expression (typed.mapTypes final.resolve)
        (final.resolve type)

/-- Further elements of an array that are walked over without a problem have the type of
the first one. -/
def ElementsDerivable (final : Store) (expressions : List Expression) : Prop :=
  ∀ ⦃inference after : Inference⦄ ⦃context : Context⦄ ⦃params pending : List VariableId⦄
    ⦃names : List String⦄ ⦃around : List Ty⦄ ⦃element : Ty⦄,
    Interpretation final inference params pending names context around →
    element.vars ⊆ pending → element.Over inference.store.cells.size →
    Expression.AllProper names expressions → ∀ ⦃typed : List Expression⦄,
      (inferElements element expressions).run inference = (typed, after) →
      after.diagnostics = [] → Framed after.store final (params ++ pending) [] →
      ElementsTyping context around expressions (Expression.mapTypesAll final.resolve typed)
        (final.resolve element)

/-- What the walk over arguments finds without a problem are their types. -/
def ArgumentsDerivable (final : Store) (expressions : List Expression) : Prop :=
  ∀ ⦃inference after : Inference⦄ ⦃context : Context⦄ ⦃params pending : List VariableId⦄
    ⦃names : List String⦄ ⦃around : List Ty⦄,
    Interpretation final inference params pending names context around →
    Expression.AllProper names expressions → ∀ ⦃inferred : List (Expression × Ty)⦄,
      (inferArguments expressions).run inference = (inferred, after) →
      after.diagnostics = [] →
      Framed after.store final (params ++ (pending ++ Ty.varsOf (inferred.map (·.2)))) [] →
      ArgumentsTyping context around expressions
        (Expression.mapTypesAll final.resolve (inferred.map (·.1)))
        ((inferred.map (·.2)).map final.resolve)

/-- What the walk over statements finds without a problem is a typing of them. -/
def StatementsDerivable (final : Store) (statements : List Statement) : Prop :=
  ∀ ⦃inference after : Inference⦄ ⦃context : Context⦄ ⦃params pending : List VariableId⦄
    ⦃names : List String⦄ ⦃around : List Ty⦄,
    Interpretation final inference params pending names context around →
    Statement.AllProper names statements → ∀ ⦃inferred : List (Statement × Ty)⦄,
      (inferStatements statements).run inference = (inferred, after) →
      after.diagnostics = [] →
      Framed after.store final
        (params ++ (pending ++ Ty.varsOf (returnTypes inferred))) [] →
      StatementsTyping context around statements
        (Statement.mapTypesAll final.resolve (inferred.map (·.1)))

/-- A number has its type. -/
theorem number_derivable (offset : Int) (value : Numeral) :
    Derivable final (.number offset value) := by
  intro inference after context params pending names around interpretation proper typed type ran
    quiet later
  obtain ⟨rfl, rfl⟩ := Prod.mk.inj (Prod.mk.inj ran).1
  have same : final.resolve (numeralType value) = numeralType value := by
    rw [numeralType]
    split <;> rfl
  rw [same]
  exact .number context around offset value

/-- A string has its type. -/
theorem string_derivable (offset : Int) (value : String) :
    Derivable final (.string offset value) := by
  intro inference after context params pending names around interpretation proper typed type ran
    quiet later
  obtain ⟨rfl, rfl⟩ := Prod.mk.inj (Prod.mk.inj ran).1
  exact .string context around offset value

/-- A Boolean has its type. -/
theorem boolean_derivable (offset : Int) (value : Bool) :
    Derivable final (.boolean offset value) := by
  intro inference after context params pending names around interpretation proper typed type ran
    quiet later
  obtain ⟨rfl, rfl⟩ := Prod.mk.inj (Prod.mk.inj ran).1
  exact .boolean context around offset value

/-- A use of a name has the type that is found for it. -/
theorem identifier_derivable (identifier : Identifier) :
    Derivable final (.identifier identifier) := by
  intro inference after context params pending names around interpretation proper typed type ran
    quiet later
  have situation := interpretation.situation
  rcases interpretation.entries.lookup identifier.name with
    ⟨unbound, -⟩ | ⟨declared, scheme, bound, found, standsFor⟩
  · obtain ⟨entry, member, same⟩ := List.mem_map.mp (interpretation.inScope proper)
    exact absurd same.symm (bne_iff_ne.mp (List.lookup_eq_none_iff.mp unbound entry member))
  rcases used : (lookup identifier.name).run inference with ⟨image, last⟩
  rw [inferExpression, run_bind, used, run_pure] at ran
  obtain ⟨result, rfl⟩ := Prod.mk.inj ran
  obtain ⟨rfl, rfl⟩ := Prod.mk.inj result
  exact .identifier around found
    (lookup_instance situation bound used later standsFor)

/-- An array without elements has the type that is found for it. -/
theorem emptyArray_derivable (offset : Int) : Derivable final (.array offset []) := by
  intro inference after context params pending names around interpretation proper typed type ran
    quiet later
  obtain ⟨store, freshRan, -⟩ := freshVariable_spec interpretation.situation.wellFormed.sound
  rw [inferExpression, run_bind, freshRan, run_pure] at ran
  obtain ⟨rfl, rfl⟩ := Prod.mk.inj (Prod.mk.inj ran).1
  exact .array offset (.nil context around _)

/-- An array has the type that is found for it, if its elements have theirs. -/
theorem array_derivable (offset : Int) {element : Expression} {rest : List Expression}
    (elementDerivable : Derivable final element) (restDerivable : ElementsDerivable final rest) :
    Derivable final (.array offset (element :: rest)) := by
  intro inference after context params pending names around interpretation proper typed type ran
    quiet later
  have situation := interpretation.situation
  obtain ⟨typedElement, elementType, first, elementRan, elementOver, elementWalked, place⟩ :=
    situation.visit element
  obtain ⟨typedRest, last, restRan, restWalked⟩ :=
    inferElements_walked elementType rest first place.wellFormed elementOver
  rw [place.params_eq] at restWalked
  simp only [inferExpression_array, elementRan, restRan] at ran
  obtain ⟨result, rfl⟩ := Prod.mk.inj ran
  obtain ⟨rfl, rfl⟩ := Prod.mk.inj result
  have laterElement := restWalked.onward place.wellFormed.sound place.all_old
    (by intro id; simp only [List.mem_append]; tauto) later (by simp [Ty.vars])
  have elementTyping := elementDerivable interpretation proper.1 elementRan
    (restWalked.none_before quiet) laterElement
  have restTyping := restDerivable
    (interpretation.walked elementWalked (List.subset_append_left _ _))
    (List.subset_append_right _ _) elementOver proper.2 restRan quiet later
  exact .array offset (.cons elementTyping restTyping)

/-- An index has the type that is found for it, if its parts have theirs. -/
theorem member_derivable (offset : Int) {object index : Expression}
    (objectDerivable : Derivable final object) (indexDerivable : Derivable final index) :
    Derivable final (.member offset object index) := by
  intro inference after context params pending names around interpretation proper typed type ran
    quiet later
  have situation := interpretation.situation
  obtain ⟨typedObject, objectType, first, objectRan, objectOver, objectWalked, place⟩ :=
    situation.visit object
  obtain ⟨typedIndex, indexType, second, indexRan, indexOver, indexWalked, behind⟩ :=
    place.visit index
  obtain ⟨_, _, memberRan, yields⟩ := memberType_yields behind.wellFormed
    (indexWalked.covered objectOver) indexOver typedObject.offset typedIndex.offset
  simp only [inferExpression_member, objectRan, indexRan, memberRan] at ran
  obtain ⟨result, rfl⟩ := Prod.mk.inj ran
  obtain ⟨rfl, rfl⟩ := Prod.mk.inj result
  have quietIndex := yields.walked.none_before quiet
  have quietObject := indexWalked.none_before quietIndex
  have laterIndex := yields.walked.onward behind.wellFormed.sound behind.all_old
    (by simp) later (by intro id; simp only [List.mem_append]; tauto)
  have laterObject := indexWalked.onward place.wellFormed.sound place.all_old
    (by simp) laterIndex (by simp)
  have fits := yields.solved (quiet.trans quietIndex.symm)
  have objectIs : final.resolve objectType = final.resolve (.array _) :=
    later.refines.resolve_eq fits.2
  have indexIs : final.resolve indexType = final.resolve (.primitive .number) :=
    later.refines.resolve_eq fits.1
  have objectTyping :=
    objectDerivable interpretation proper.1 objectRan quietObject laterObject
  have indexTyping := indexDerivable
    (interpretation.walked objectWalked (List.subset_append_left _ _)) proper.2 indexRan
    quietIndex laterIndex
  rw [objectIs] at objectTyping
  rw [indexIs] at indexTyping
  exact .member offset objectTyping indexTyping

/-- A sum has the type that is found for it, if its parts have theirs. -/
theorem binary_derivable (offset : Int) {left : Expression} (operator : String)
    {right : Expression} (leftDerivable : Derivable final left)
    (rightDerivable : Derivable final right) :
    Derivable final (.binary offset left operator right) := by
  intro inference after context params pending names around interpretation proper typed type ran
    quiet later
  have situation := interpretation.situation
  obtain ⟨typedLeft, leftType, first, leftRan, leftOver, leftWalked, place⟩ :=
    situation.visit left
  obtain ⟨typedRight, rightType, second, rightRan, rightOver, rightWalked, behind⟩ :=
    place.visit right
  by_cases sum : operator = "+"
  · subst sum
    obtain ⟨_, _, sumRan, adds⟩ := sumType_adds behind.wellFormed (rightWalked.covered leftOver)
      rightOver typedLeft.offset typedRight.offset offset "+"
    simp only [inferExpression_sum, leftRan, rightRan, sumRan] at ran
    obtain ⟨result, rfl⟩ := Prod.mk.inj ran
    obtain ⟨rfl, rfl⟩ := Prod.mk.inj result
    have quietRight := adds.walked.none_before quiet
    have quietLeft := rightWalked.none_before quietRight
    have laterRight := adds.walked.onward behind.wellFormed.sound behind.all_old
      (by simp) later (by intro id; simp only [List.mem_append]; tauto)
    have laterLeft := rightWalked.onward place.wellFormed.sound place.all_old
      (by simp) laterRight (by simp)
    obtain ⟨kind, additive, leftSolved, rightSolved, rfl⟩ :=
      adds.solved (quiet.trans quietRight.symm)
    have leftIs : final.resolve leftType = final.resolve (.primitive kind) :=
      later.refines.resolve_eq leftSolved
    have rightIs : final.resolve rightType = final.resolve (.primitive kind) :=
      later.refines.resolve_eq rightSolved
    have leftTyping :=
      leftDerivable interpretation proper.1 leftRan quietLeft laterLeft
    have rightTyping := rightDerivable
      (interpretation.walked leftWalked (List.subset_append_left _ _)) proper.2 rightRan
      quietRight laterRight
    rw [leftIs] at leftTyping
    rw [rightIs] at rightTyping
    exact .sum offset additive leftTyping rightTyping
  · obtain ⟨_, _, refuseRan, -, walked, reported⟩ :=
      refuse_spec behind.wellFormed (.unsupportedOperator operator) offset
    simp only [inferExpression_binary offset left right inference sum, leftRan, rightRan,
      refuseRan] at ran
    obtain ⟨-, rfl⟩ := Prod.mk.inj ran
    exact absurd (quiet.trans (walked.none_before quiet).symm) reported

/-- A conditional has the type that is found for it, if its parts have theirs. -/
theorem conditional_derivable (offset : Int) {test consequent alternate : Expression}
    (testDerivable : Derivable final test) (consequentDerivable : Derivable final consequent)
    (alternateDerivable : Derivable final alternate) :
    Derivable final (.conditional offset test consequent alternate) := by
  intro inference after context params pending names around interpretation proper typed type ran
    quiet later
  have situation := interpretation.situation
  obtain ⟨typedTest, testType, first, testRan, testOver, testWalked, place⟩ :=
    situation.visit test
  obtain ⟨_, tested, testedRan, testSolves, -⟩ := unify_solves place.wellFormed.sound testOver
    (by simp : (Ty.primitive .bool).Over _) typedTest.offset
  have placeTested := interpretation.walked testWalked (List.subset_append_left _ _)
  have placeBranches := (placeTested.walked testSolves.walked (by simp)).fewer
    (by simp : pending ⊆ _)
  have between := placeBranches.situation
  obtain ⟨typedConsequent, consequentType, second, consequentRan, consequentOver,
    consequentWalked, placeSecond⟩ := between.visit consequent
  obtain ⟨typedAlternate, alternateType, third, alternateRan, alternateOver,
    alternateWalked, placeThird⟩ := placeSecond.visit alternate
  obtain ⟨branch, _, branchRan, yields⟩ := branchType_yields placeThird.wellFormed
    (alternateWalked.covered consequentOver) alternateOver typedConsequent.offset
    typedAlternate.offset
  simp only [inferExpression_conditional, testRan, testedRan, consequentRan, alternateRan,
    branchRan] at ran
  obtain ⟨result, rfl⟩ := Prod.mk.inj ran
  obtain ⟨rfl, (rfl : branch = type)⟩ := Prod.mk.inj result
  have quietThird := yields.walked.none_before quiet
  have quietSecond := alternateWalked.none_before quietThird
  have quietTested := consequentWalked.none_before quietSecond
  have quietFirst := testSolves.walked.none_before quietTested
  have laterThird := yields.walked.onward placeThird.wellFormed.sound placeThird.all_old
    (by simp) later (by intro id; simp only [List.mem_append]; tauto)
  have laterSecond := alternateWalked.onward placeSecond.wellFormed.sound placeSecond.all_old
    (by simp) laterThird (by simp)
  have laterTested := consequentWalked.onward between.wellFormed.sound between.all_old
    (by simp) laterSecond (by simp)
  have laterFirst := testSolves.walked.onward place.wellFormed.sound place.all_old
    (by simp) laterTested (by simp)
  have testSolved := Solver.equates_cons.mp (testSolves.solved (quietTested.trans quietFirst.symm))
  have fits := yields.solved (quiet.trans quietThird.symm)
  have testIs : final.resolve testType = final.resolve (.primitive .bool) :=
    laterTested.refines.resolve_eq testSolved.1
  have consequentIs : final.resolve consequentType = final.resolve branch :=
    later.refines.resolve_eq fits.1
  have alternateIs : final.resolve alternateType = final.resolve branch :=
    later.refines.resolve_eq fits.2
  have testTyping :=
    testDerivable interpretation proper.1 testRan quietFirst laterFirst
  have consequentTyping := consequentDerivable placeBranches proper.2.1
    consequentRan quietSecond laterSecond
  have alternateTyping := alternateDerivable
    (placeBranches.walked consequentWalked (List.subset_append_left _ _)) proper.2.2
    alternateRan quietThird laterThird
  rw [testIs] at testTyping
  rw [consequentIs] at consequentTyping
  rw [alternateIs] at alternateTyping
  exact .conditional offset testTyping consequentTyping alternateTyping

/-- A function has the type that is found for it, if its body has a typing. -/
theorem arrow_derivable (offset opening : Int) (parameters : List Parameter)
    (result : Option Ascription) {statements : List Statement}
    (bodyDerivable : StatementsDerivable final statements) :
    Derivable final (.arrow offset parameters result { offset := opening, statements }) := by
  intro inference after context params pending names around interpretation proper typed type ran
    quiet later
  have situation := interpretation.situation
  obtain ⟨types, store, paramsRan, invents⟩ :=
    bindParameters_invents parameters inference situation.wellFormed.sound
  have inner := interpretation.enter invents
  have entered := inner.situation
  obtain ⟨inferred, first, bound, bodyRan, inferredOver, bodyWalked⟩ :=
    inferStatements_walked statements _ entered.wellFormed
  have firstFormed := bodyWalked.wellFormed entered.wellFormed
  have returnedOver : (returnedType inferred).Over first.store.cells.size := by
    rcases returnedType_mem inferred with member | isVoid
    · exact inferredOver _ member
    · simp [isVoid]
  obtain ⟨returned, second, ascribeRan, yields⟩ :=
    ascribe_yields firstFormed returnedOver result offset
  simp only [inferExpression_arrow, paramsRan, bodyRan, ascribeRan] at ran
  obtain ⟨outcome, rfl⟩ := Prod.mk.inj ran
  obtain ⟨rfl, rfl⟩ := Prod.mk.inj outcome
  have quietBody := yields.walked.none_before quiet
  have old (id : VariableId) (member : id ∈ params ++ Ty.varsOf types ++
      (pending ++ Ty.varsOf (returnTypes inferred))) : id < first.store.cells.size := by
    rw [← List.append_assoc, List.mem_append] at member
    rcases member with before | isReturned
    · exact Nat.lt_of_lt_of_le (entered.all_old id before)
        bodyWalked.framed.refines.size_le
    · exact varsOf_old inferredOver id (returnTypes_subset inferred isReturned)
  have laterBody := yields.walked.onward firstFormed.sound old
    (List.subset_append_of_subset_right _ (List.subset_append_of_subset_right _
      (returnedType_vars inferred))) later (by
        intro id
        simp only [Ty.vars, List.mem_append]
        tauto)
  have bodyTyping :=
    bodyDerivable inner proper.2 bodyRan quietBody laterBody
  have fits := yields.solved (quiet.trans quietBody.symm)
  have returnedIs : final.resolve (returnedType inferred) = final.resolve returned :=
    later.refines.resolve_eq fits.1
  obtain ⟨kinds, filled⟩ := inferStatements_filled bodyRan
  have last : ReturnsLast (inferred.map (·.1)) := returnsLast_congr proper.1 kinds
  have returns := returns_mapTypes last filled final.resolve rfl
  rw [returnedIs] at returns
  have denotes := invents.allowed.substitute final.solution
  rw [resolve_function]
  refine .arrow offset opening denotes bodyTyping returns fun written isWritten => ?_
  have resolved := (fits.2 written isWritten).substitute final.solution
  rwa [substitute_solution, later.refines.resolve_resolve] at resolved

/-- A call has the type that is found for it, if its parts have theirs. -/
theorem call_derivable (offset : Int) {callee : Expression} {arguments : List Expression}
    (calleeDerivable : Derivable final callee)
    (argumentsDerivable : ArgumentsDerivable final arguments) :
    Derivable final (.call offset callee arguments) := by
  intro inference after context params pending names around interpretation proper typed type ran
    quiet later
  have situation := interpretation.situation
  obtain ⟨typedCallee, calleeType, first, calleeRan, calleeOver, calleeWalked, place⟩ :=
    situation.visit callee
  obtain ⟨reached, store, compressRan, -, same, reachedOver, following⟩ :=
    follow_spec place.wellFormed.sound calleeOver
  have placeCallee := interpretation.walked calleeWalked (List.subset_append_left _ _)
  have placeReached := (placeCallee.walked following (by simp)).fewer
    (by simp : pending ++ reached.vars ⊆ _)
  have between := placeReached.situation
  obtain ⟨inferred, second, argumentsRan, inferredOver, argumentsWalked⟩ :=
    inferArguments_walked arguments _ between.wellFormed
  rw [between.params_eq] at argumentsWalked
  have behind := between.walked argumentsWalked (List.subset_append_left _ _)
  obtain ⟨called, last, callRan, yields⟩ := callType_yields behind.wellFormed
    (argumentsWalked.covered reachedOver) inferredOver offset
  simp only [inferExpression_call, calleeRan, compressRan, argumentsRan, callRan] at ran
  obtain ⟨outcome, (rfl : last = after)⟩ := Prod.mk.inj ran
  obtain ⟨rfl, (rfl : called = type)⟩ := Prod.mk.inj outcome
  have quietArguments := yields.walked.none_before quiet
  have quietCallee := argumentsWalked.none_before quietArguments
  have laterArguments := yields.walked.onward behind.wellFormed.sound behind.all_old
    (by simp) later (by intro id; simp only [List.mem_append]; tauto)
  have laterReached := argumentsWalked.onward between.wellFormed.sound between.all_old
    (List.subset_append_left _ _) (List.append_assoc pending _ _ ▸ laterArguments) (by simp)
  have laterCallee := following.onward place.wellFormed.sound place.all_old
    (by simp) laterReached (by intro id; simp only [List.mem_append]; tauto)
  have fits := yields.solved (quiet.trans quietArguments.symm)
  have calleeTyping := calleeDerivable interpretation proper.1 calleeRan
    quietCallee laterCallee
  have argumentsTyping := argumentsDerivable placeReached proper.2 argumentsRan
    quietArguments laterArguments
  have reachedIs : last.store.resolve reached =
      last.store.resolve (.function (inferred.map (·.2)) called) :=
    fits.trans (resolve_function _ _ _).symm
  rw [← laterCallee.refines.resolve_eq same, later.refines.resolve_eq reachedIs,
    resolve_function] at calleeTyping
  exact .call offset calleeTyping argumentsTyping

/-- Further elements have the type of the first one, one after the other. -/
theorem elements_derivable {expression : Expression} {rest : List Expression}
    (firstDerivable : Derivable final expression) (restDerivable : ElementsDerivable final rest) :
    ElementsDerivable final (expression :: rest) := by
  intro inference after context params pending names around element interpretation inHand covered
    proper typed ran quiet later
  have situation := interpretation.situation
  obtain ⟨typedFirst, type, first, firstRan, typeOver, walked, place⟩ :=
    situation.visit expression
  obtain ⟨_, unified, unifyRan, solves, -⟩ :=
    unify_solves place.wellFormed.sound (walked.covered covered) typeOver typedFirst.offset
  have knows : element.vars ++ type.vars ⊆ params ++ (pending ++ type.vars) := by
    intro id member
    simp only [List.mem_append] at member ⊢
    exact .inr (member.imp_left (@inHand id))
  have placeFirst := interpretation.walked walked (List.subset_append_left _ _)
  have placeRest := (placeFirst.walked solves.walked knows).fewer (by simp : pending ⊆ _)
  have between := placeRest.situation
  obtain ⟨typedRest, last, restRan, restWalked⟩ := inferElements_walked element rest unified
    between.wellFormed (solves.walked.covered (walked.covered covered))
  rw [between.params_eq] at restWalked
  simp only [inferElements_cons, firstRan, unifyRan, restRan] at ran
  obtain ⟨rfl, rfl⟩ := Prod.mk.inj ran
  have quietUnified := restWalked.none_before quiet
  have quietFirst := solves.walked.none_before quietUnified
  have laterUnified := restWalked.onward between.wellFormed.sound between.all_old
    (List.append_subset.mpr ⟨List.subset_append_left _ _,
      List.subset_append_of_subset_right _ inHand⟩) later (by simp)
  have laterFirst := solves.walked.onward place.wellFormed.sound place.all_old knows
    laterUnified (by simp)
  have solved := Solver.equates_cons.mp (solves.solved (quietUnified.trans quietFirst.symm))
  have typeIs : final.resolve element = final.resolve type :=
    laterUnified.refines.resolve_eq solved.1
  have firstTyping := firstDerivable interpretation proper.1 firstRan
    quietFirst laterFirst
  have restTyping := restDerivable placeRest inHand
    (solves.walked.covered (walked.covered covered)) proper.2 restRan quiet later
  rw [← typeIs] at firstTyping
  exact .cons firstTyping restTyping

/-- Arguments have their types, one after the other. -/
theorem arguments_derivable {expression : Expression} {rest : List Expression}
    (firstDerivable : Derivable final expression)
    (restDerivable : ArgumentsDerivable final rest) :
    ArgumentsDerivable final (expression :: rest) := by
  intro inference after context params pending names around interpretation proper inferred ran
    quiet later
  have situation := interpretation.situation
  obtain ⟨typed, type, first, firstRan, typeOver, walked, place⟩ := situation.visit expression
  obtain ⟨others, last, restRan, -, restWalked⟩ :=
    inferArguments_walked rest first place.wellFormed
  rw [place.params_eq] at restWalked
  simp only [inferArguments_cons, firstRan, restRan] at ran
  obtain ⟨rfl, rfl⟩ := Prod.mk.inj ran
  rw [List.map_cons, Ty.varsOf, ← List.append_assoc pending] at later
  have laterFirst := restWalked.onward place.wellFormed.sound place.all_old
    (List.subset_append_left _ _) later (by simp)
  have firstTyping := firstDerivable interpretation proper.1 firstRan
    (restWalked.none_before quiet) laterFirst
  have restTyping := restDerivable
    (interpretation.walked walked (List.subset_append_left _ _)) proper.2 restRan quiet later
  exact .cons firstTyping restTyping

/-- Behind a constant the statements have a typing with the constant in scope. -/
theorem constant_derivable (offset : Int) (id : Identifier) (ascription : Option Ascription)
    {initial : Expression} (earlier : Option Ty) {rest : List Statement}
    (initialDerivable : Derivable final initial) (restDerivable : StatementsDerivable final rest) :
    StatementsDerivable final (.constant offset id ascription initial earlier :: rest) := by
  intro inference after context params pending names around interpretation proper inferred ran
    quiet later
  have situation := interpretation.situation
  obtain ⟨typedInitial, initialType, first, initialRan, initialOver, initialWalked, place⟩ :=
    situation.visit initial
  obtain ⟨type, second, ascribeRan, yields⟩ :=
    ascribe_yields place.wellFormed initialOver ascription typedInitial.offset
  have walked : Walked inference second params type.vars [] :=
    (initialWalked.append yields.walked (List.subset_append_right _ _)).fewer
      (List.subset_append_of_subset_right _ (List.subset_append_right _ _))
  have placeRest := interpretation.declare id.name walked yields.covered
  obtain ⟨others, last, bound, restRan, -, restWalked⟩ :=
    inferStatements_walked rest _ placeRest.situation.wellFormed
  rw [placeRest.situation.params_eq] at restWalked
  simp only [inferStatements_cons, inferStatement_constant, initialRan, ascribeRan, restRan]
    at ran
  obtain ⟨rfl, rfl⟩ := Prod.mk.inj ran
  have quietSecond := restWalked.none_before quiet
  have quietFirst := yields.walked.none_before quietSecond
  have laterRest : Framed last.store final
      (params ++ (pending ++ Ty.varsOf (returnTypes others))) [] := later
  have behind := situation.walked walked (List.subset_append_left _ _)
  have laterSecond : Framed second.store final (params ++ (pending ++ type.vars)) [] := by
    refine restWalked.onward behind.wellFormed.sound behind.all_old
      (List.subset_append_left _ _) laterRest ?_
    intro place
    have isMade := returnTypes_subset others
    simp only [List.mem_append]
    rintro (isParam | isPending | isReturned)
    · exact .inl (.inl isParam)
    · exact .inl (.inr (.inl isPending))
    · exact .inr (isMade isReturned)
  have laterFirst := yields.walked.onward place.wellFormed.sound place.all_old
    (by simp) laterSecond (by intro place; simp only [List.mem_append]; tauto)
  have fits := yields.solved (quietSecond.trans quietFirst.symm)
  have initialIs : final.resolve initialType = final.resolve type :=
    laterSecond.refines.resolve_eq fits.1
  have initialTyping := initialDerivable interpretation proper.1 initialRan
    quietFirst laterFirst
  have restTyping := restDerivable placeRest proper.2 restRan quiet laterRest
  rw [initialIs] at initialTyping
  refine .constant offset earlier initialTyping (fun written isWritten => ?_) restTyping
  have resolved := (fits.2 written isWritten).substitute final.solution
  rwa [substitute_solution, laterSecond.refines.resolve_resolve] at resolved

/-- Behind a return without an argument the statements have a typing. -/
theorem leaving_derivable (offset : Int) (earlier : Option Ty) {rest : List Statement}
    (restDerivable : StatementsDerivable final rest) :
    StatementsDerivable final (.returning offset none earlier :: rest) := by
  intro inference after context params pending names around interpretation proper inferred ran
    quiet later
  have situation := interpretation.situation
  obtain ⟨others, last, bound, restRan, -, restWalked⟩ :=
    inferStatements_walked rest inference situation.wellFormed
  have returned : (inferStatement (.returning offset none earlier)).run inference =
      ((.returning offset none (some (.primitive .void)), .primitive .void), inference) := rfl
  simp only [inferStatements_cons, returned, restRan] at ran
  obtain ⟨rfl, rfl⟩ := Prod.mk.inj ran
  exact .leaving offset earlier
    (restDerivable interpretation proper.2 restRan quiet later)

/-- Behind a return with an argument the statements have a typing. -/
theorem returning_derivable (offset : Int) {argument : Expression} (earlier : Option Ty)
    {rest : List Statement} (argumentDerivable : Derivable final argument)
    (restDerivable : StatementsDerivable final rest) :
    StatementsDerivable final (.returning offset (some argument) earlier :: rest) := by
  intro inference after context params pending names around interpretation proper inferred ran
    quiet later
  have situation := interpretation.situation
  obtain ⟨typed, type, first, argumentRan, typeOver, walked, place⟩ := situation.visit argument
  obtain ⟨others, last, bound, restRan, -, restWalked⟩ :=
    inferStatements_walked rest first place.wellFormed
  rw [place.params_eq] at restWalked
  simp only [inferStatements_cons, inferStatement_returning, argumentRan, restRan] at ran
  obtain ⟨rfl, rfl⟩ := Prod.mk.inj ran
  have laterRest : Framed last.store final
      (params ++ (pending ++ type.vars ++ Ty.varsOf (returnTypes others))) [] := by
    rw [List.append_assoc pending]
    exact later
  have laterFirst : Framed first.store final (params ++ (pending ++ type.vars)) [] := by
    refine restWalked.onward place.wellFormed.sound place.all_old
      (List.subset_append_left _ _) laterRest ?_
    intro id
    have isMade := returnTypes_subset others
    simp only [List.mem_append]
    rintro (isParam | isPending | isReturned)
    · exact .inl (.inl isParam)
    · exact .inl (.inr isPending)
    · exact .inr (isMade isReturned)
  have argumentTyping := argumentDerivable interpretation proper.1 argumentRan
    (restWalked.none_before quiet) laterFirst
  have restTyping := restDerivable
    (interpretation.walked walked (List.subset_append_left _ _)) proper.2 restRan quiet laterRest
  exact .returning offset earlier argumentTyping restTyping

mutual

/-- What is found for an expression without a problem is a type of it. -/
theorem expression_derivable (final : Store) (expression : Expression) :
    Derivable final expression := by
  match expression with
  | .number offset value => exact number_derivable offset value
  | .string offset value => exact string_derivable offset value
  | .boolean offset value => exact boolean_derivable offset value
  | .identifier identifier => exact identifier_derivable identifier
  | .array offset [] => exact emptyArray_derivable offset
  | .array offset (element :: rest) =>
    exact array_derivable offset (expression_derivable final element)
      (allElements_derivable final rest)
  | .member offset object index =>
    exact member_derivable offset (expression_derivable final object)
      (expression_derivable final index)
  | .binary offset left operator right =>
    exact binary_derivable offset operator (expression_derivable final left)
      (expression_derivable final right)
  | .conditional offset test consequent alternate =>
    exact conditional_derivable offset (expression_derivable final test)
      (expression_derivable final consequent) (expression_derivable final alternate)
  | .arrow offset parameters result { offset := opening, statements } =>
    exact arrow_derivable offset opening parameters result
      (allStatements_derivable final statements)
  | .call offset callee arguments =>
    exact call_derivable offset (expression_derivable final callee)
      (allArguments_derivable final arguments)

/-- All further elements of an array have the type of the first one. -/
theorem allElements_derivable (final : Store) (expressions : List Expression) :
    ElementsDerivable final expressions := by
  match expressions with
  | [] =>
    intro inference after context params pending names around element _ _ _ _ typed ran _ _
    obtain ⟨rfl, rfl⟩ := Prod.mk.inj ran
    exact .nil context around _
  | expression :: rest =>
    exact elements_derivable (expression_derivable final expression)
      (allElements_derivable final rest)

/-- What is found for arguments without a problem are their types. -/
theorem allArguments_derivable (final : Store) (expressions : List Expression) :
    ArgumentsDerivable final expressions := by
  match expressions with
  | [] =>
    intro inference after context params pending names around _ _ inferred ran _ _
    obtain ⟨rfl, rfl⟩ := Prod.mk.inj ran
    exact .nil context around
  | expression :: rest =>
    exact arguments_derivable (expression_derivable final expression)
      (allArguments_derivable final rest)

/-- What is found for statements without a problem is a typing of them. -/
theorem allStatements_derivable (final : Store) (statements : List Statement) :
    StatementsDerivable final statements := by
  match statements with
  | [] =>
    intro inference after context params pending names around _ _ inferred ran _ _
    obtain ⟨rfl, rfl⟩ := Prod.mk.inj ran
    exact .nil context around
  | .constant offset id ascription initial earlier :: rest =>
    exact constant_derivable offset id ascription earlier (expression_derivable final initial)
      (allStatements_derivable final rest)
  | .returning offset none earlier :: rest =>
    exact leaving_derivable offset earlier (allStatements_derivable final rest)
  | .returning offset (some argument) earlier :: rest =>
    exact returning_derivable offset earlier (expression_derivable final argument)
      (allStatements_derivable final rest)

end

end Inferrer

/-- Where validation, name resolution and inference have nothing to report, the types that
inference leaves on a program form a typing of it. -/
theorem infer_sound (program : Program) (valid : program.validate = [])
    (resolved : program.resolve.diagnostics = [])
    (inferred : program.resolve.program.infer.2 = []) :
    StatementsTyping [] [] program.resolve.program.body
      program.resolve.program.infer.1.body := by
  have proper := Program.resolve_proper valid resolved
  generalize program.resolve.program = linked at proper inferred ⊢
  obtain ⟨types, after, bound, ran, covered, walked⟩ :=
    Inferrer.inferStatements_walked linked.body {} Inference.wellFormed_empty
  have interpretation : Inferrer.Interpretation after.store {} [] [] [] [] [] :=
    { situation := Inferrer.situation_empty
      inScope := List.nil_subset _
      entries := .nil
      around_eq := rfl }
  have atEnd : Store.Framed after.store after.store
      ([] ++ ([] ++ Ty.varsOf (Inferrer.returnTypes types))) [] := by
    have sound := walked.framed.sound
    refine (Store.Framed.of_agrees (.refl _) sound).wider sound ?_ (List.nil_subset _)
    exact fun id member => Inferrer.varsOf_old covered id
      (Inferrer.returnTypes_subset types (by simpa using member))
  simp only [Program.infer, ran] at inferred ⊢
  exact Inferrer.allStatements_derivable after.store linked.body interpretation proper ran inferred
    atEnd

/-- The identity is found to be polymorphic, and is used with an array of strings. -/
theorem infer_sound_identity :
    let use (name : String) : Expression := .identifier { offset := 0, name }
    let identity : Expression := .arrow 0 [{ offset := 0, name := "x" }] none
      { offset := 0, statements := [.returning 0 (some (use "x"))] }
    let program : Program :=
      { body :=
          [.constant 0 { offset := 0, name := "id" } none identity,
            .constant 0 { offset := 0, name := "n" } none
              (.call 0 (use "id") [.array 0 [.string 0 "a"]])] }
    program.resolve.program.infer.1.body.map (·.inferred.map Ty.text) =
        [some "(t0) -> t0", some "Array<String>"] ∧
      StatementsTyping [] [] program.resolve.program.body
        program.resolve.program.infer.1.body := by
  exact ⟨by decide +kernel,
    infer_sound _ (by decide +kernel) (by decide +kernel) (by decide +kernel)⟩

end ArrowScript
