import ArrowScript.Proofs.Inference.Bodies
import ArrowScript.Proofs.Inference.Realization

/-!
# Completeness

A program without sums that has a typing is inferred without a problem, and the types
that are found are the most general ones. This is shown rule by rule: for each form of
expression and statement, a model to which the parts have the types of a given typing
is extended to one to which the whole has.
-/

namespace ArrowScript

mutual

/-- An expression without sums, or any other binary expressions. -/
def Expression.Sumless : Expression → Prop
  | .number _ _ | .string _ _ | .boolean _ _ | .identifier _ => True
  | .array _ elements => Expression.AllSumless elements
  | .member _ object index => object.Sumless ∧ index.Sumless
  | .binary _ _ _ _ => False
  | .conditional _ test consequent alternate =>
    test.Sumless ∧ consequent.Sumless ∧ alternate.Sumless
  | .arrow _ _ _ { statements, .. } => Statement.AllSumless statements
  | .call _ callee arguments => callee.Sumless ∧ Expression.AllSumless arguments

/-- Several expressions without sums. -/
def Expression.AllSumless : List Expression → Prop
  | [] => True
  | expression :: rest => expression.Sumless ∧ Expression.AllSumless rest

/-- A statement without sums. -/
def Statement.Sumless : Statement → Prop
  | .constant _ _ _ initial _ => initial.Sumless
  | .returning _ (some argument) _ => argument.Sumless
  | .returning _ none _ => True

/-- Several statements without sums. -/
def Statement.AllSumless : List Statement → Prop
  | [] => True
  | statement :: rest => statement.Sumless ∧ Statement.AllSumless rest

end

/-- A program without sums. -/
def Program.Sumless (program : Program) : Prop := Statement.AllSumless program.body

namespace Inferrer

open Store

variable {model extended : VariableId → Ty}

/-- The statements of a typing have the types that a model gives to the inferred ones. -/
def Matches (model : VariableId → Ty) (inferred : List (Statement × Ty))
    (typed : List Statement) : Prop :=
  List.Forall₂ (fun pair statement => statement.isReturn = pair.1.isReturn ∧
    statement.inferred = some (pair.2.substitute model)) inferred typed

/-- What a body returns in a typing is what the model gives to the type that is found. -/
theorem Matches.returned {inferred : List (Statement × Ty)} {typed : List Statement} {type : Ty}
    (matching : Matches model inferred typed) (returns : Returns typed type) :
    (returnedType inferred).substitute model = type := by
  induction matching with
  | nil => exact (returns.2 (by simp)).symm
  | @cons pair statement inferred typed same _ inductionHypothesis =>
    rw [returnedType_cons]
    cases isReturn : pair.1.isReturn with
    | true =>
      have found := returns.1 statement List.mem_cons_self (same.1.trans isReturn)
      exact Option.some.inj (same.2.symm.trans found)
    | false =>
      refine inductionHypothesis ⟨fun other member => returns.1 other (.tail _ member), ?_⟩
      refine fun none => returns.2 (List.forall_mem_cons.mpr ⟨same.1.trans isReturn, none⟩)

/-- A statement of a typing has the type that the model gives to the inferred one. -/
theorem Matches.at {inferred : List (Statement × Ty)} {typed : List Statement}
    (matching : Matches model inferred typed) {index : Nat} {statement : Statement}
    (found : typed[index]? = some statement) :
    ∃ pair, inferred[index]? = some pair ∧
      statement.inferred = some (pair.2.substitute model) := by
  induction matching generalizing index with
  | nil => simp at found
  | @cons pair first inferred typed same _ inductionHypothesis =>
    cases index with
    | zero =>
      obtain rfl := Option.some.inj found
      exact ⟨pair, rfl, same.2⟩
    | succ index => exact inductionHypothesis found

/-- An expression is given every type that it has in a typing. -/
def Complete (expression : Expression) : Prop :=
  ∀ ⦃inference after : Inference⦄ ⦃context : Context⦄ ⦃params pending : List VariableId⦄
    ⦃around : List Ty⦄ ⦃model : VariableId → Ty⦄,
    Realization model inference params pending context around →
    ∀ ⦃declared typed : Expression⦄ ⦃type image : Ty⦄,
      ExpressionTyping context around expression declared image →
      (inferExpression expression).run inference = ((typed, type), after) →
      Extends model inference after fun extended => type.substitute extended = image

/-- Further elements of an array are given the type of the first one. -/
def ElementsComplete (expressions : List Expression) : Prop :=
  ∀ ⦃inference after : Inference⦄ ⦃context : Context⦄ ⦃params pending : List VariableId⦄
    ⦃around : List Ty⦄ ⦃model : VariableId → Ty⦄ ⦃element image : Ty⦄,
    Realization model inference params pending context around → element.vars ⊆ pending →
    element.Over inference.store.cells.size → element.substitute model = image →
    ∀ ⦃declared typed : List Expression⦄,
      ElementsTyping context around expressions declared image →
      (inferElements element expressions).run inference = (typed, after) →
      Extends model inference after fun extended => element.substitute extended = image

/-- Arguments are given the types that they have in a typing. -/
def ArgumentsComplete (expressions : List Expression) : Prop :=
  ∀ ⦃inference after : Inference⦄ ⦃context : Context⦄ ⦃params pending : List VariableId⦄
    ⦃around : List Ty⦄ ⦃model : VariableId → Ty⦄,
    Realization model inference params pending context around →
    ∀ ⦃declared : List Expression⦄ ⦃images : List Ty⦄ ⦃inferred : List (Expression × Ty)⦄,
      ArgumentsTyping context around expressions declared images →
      (inferArguments expressions).run inference = (inferred, after) →
      Extends model inference after fun extended =>
        (inferred.map (·.2)).map (·.substitute extended) = images

/-- Statements are given the types that they have in a typing. -/
def StatementsComplete (statements : List Statement) : Prop :=
  ∀ ⦃inference after : Inference⦄ ⦃context : Context⦄ ⦃params pending : List VariableId⦄
    ⦃around : List Ty⦄ ⦃model : VariableId → Ty⦄,
    Realization model inference params pending context around →
    ∀ ⦃declared : List Statement⦄ ⦃inferred : List (Statement × Ty)⦄,
      StatementsTyping context around statements declared →
      (inferStatements statements).run inference = (inferred, after) →
      Extends model inference after fun extended => Matches extended inferred declared

/-- A number has no other type than its own. -/
theorem number_complete (offset : Int) (value : Numeral) : Complete (.number offset value) := by
  intro inference after context params pending around model realization declared typed type image
    typing ran
  cases typing
  obtain ⟨result, rfl⟩ := Prod.mk.inj ran
  obtain ⟨-, rfl⟩ := Prod.mk.inj result
  have same : (numeralType value).substitute model = numeralType value := by
    rw [numeralType]
    split <;> rfl
  exact ⟨rfl, model, fun _ _ => rfl, realization.models, same⟩

/-- A string has no other type than its own. -/
theorem string_complete (offset : Int) (value : String) : Complete (.string offset value) := by
  intro inference after context params pending around model realization declared typed type image
    typing ran
  cases typing
  obtain ⟨result, rfl⟩ := Prod.mk.inj ran
  obtain ⟨-, rfl⟩ := Prod.mk.inj result
  exact ⟨rfl, model, fun _ _ => rfl, realization.models, rfl⟩

/-- A Boolean has no other type than its own. -/
theorem boolean_complete (offset : Int) (value : Bool) : Complete (.boolean offset value) := by
  intro inference after context params pending around model realization declared typed type image
    typing ran
  cases typing
  obtain ⟨result, rfl⟩ := Prod.mk.inj ran
  obtain ⟨-, rfl⟩ := Prod.mk.inj result
  exact ⟨rfl, model, fun _ _ => rfl, realization.models, rfl⟩

/-- A use of a name is given every type with which its scheme can be used. -/
theorem identifier_complete (identifier : Identifier) :
    Complete (.identifier identifier) := by
  intro inference after context params pending around model realization declared typed type image
    typing ran
  cases typing with
  | identifier _ bound isInstance =>
    rcases used : (lookup identifier.name).run inference with ⟨found, last⟩
    rw [inferExpression, run_bind, used, run_pure] at ran
    obtain ⟨result, rfl⟩ := Prod.mk.inj ran
    obtain ⟨-, rfl⟩ := Prod.mk.inj result
    exact lookup_extends realization bound isInstance used

/-- An array without elements is given any type for them. -/
theorem emptyArray_complete (offset : Int) : Complete (.array offset []) := by
  intro inference after context params pending around model realization declared typed type image
    typing ran
  have situation := realization.situation
  cases typing with
  | @array _ _ _ _ _ element =>
    obtain ⟨fresh, store, freshRan, invents⟩ :=
      freshVariable_invents situation.wellFormed.sound fun _ : Ty => trivial
    rw [inferExpression, run_bind, freshRan, run_pure] at ran
    obtain ⟨result, rfl⟩ := Prod.mk.inj ran
    obtain ⟨-, rfl⟩ := Prod.mk.inj result
    obtain ⟨extended, old, same⟩ := invents.general model [element] ⟨element, rfl, trivial⟩
    have models := realization.models.extend situation.wellFormed.sound invents.agrees old
    exact ⟨rfl, extended, old, models, congrArg Ty.array (List.singleton_inj.mp same)⟩

/-- An array is given every type that its elements can have. -/
theorem array_complete (offset : Int) {element : Expression} {rest : List Expression}
    (elementComplete : Complete element) (restComplete : ElementsComplete rest) :
    Complete (.array offset (element :: rest)) := by
  intro inference after context params pending around model realization declared typed type image
    typing ran
  have situation := realization.situation
  cases typing with
  | array _ elementsTyping =>
    cases elementsTyping with
    | @cons _ _ _ _ _ _ elementImage elementTyping restTyping =>
      obtain ⟨typedElement, elementType, first, elementRan, elementOver, elementWalked, place⟩ :=
        situation.visit element
      rcases restRan : (inferElements elementType rest).run first with ⟨typedRest, last⟩
      simp only [inferExpression_array, elementRan, restRan] at ran
      obtain ⟨result, rfl⟩ := Prod.mk.inj ran
      obtain ⟨-, rfl⟩ := Prod.mk.inj result
      refine (elementComplete realization elementTyping
        elementRan).bind elementWalked.framed.refines.size_le fun middle old models elementIs => ?_
      have realizationRest :=
        realization.walked elementWalked (List.subset_append_left _ _) old models
      refine (restComplete realizationRest (List.subset_append_right _ _)
        elementOver elementIs restTyping restRan).imp fun extended same => ?_
      rw [Ty.substitute, same]

/-- An index is given every type that the elements of the object can have. -/
theorem member_complete (offset : Int) {object index : Expression}
    (objectComplete : Complete object) (indexComplete : Complete index) :
    Complete (.member offset object index) := by
  intro inference after context params pending around model realization declared typed type image
    typing ran
  have situation := realization.situation
  cases typing with
  | member _ objectTyping indexTyping =>
    obtain ⟨typedObject, objectType, first, objectRan, objectOver, objectWalked, place⟩ :=
      situation.visit object
    obtain ⟨typedIndex, indexType, second, indexRan, indexOver, indexWalked, behind⟩ :=
      place.visit index
    obtain ⟨_, _, memberRan, yields⟩ := memberType_yields behind.wellFormed
      (indexWalked.covered objectOver) indexOver typedObject.offset typedIndex.offset
    simp only [inferExpression_member, objectRan, indexRan, memberRan] at ran
    obtain ⟨result, rfl⟩ := Prod.mk.inj ran
    obtain ⟨-, rfl⟩ := Prod.mk.inj result
    refine (objectComplete realization objectTyping
      objectRan).bind objectWalked.framed.refines.size_le fun middle old models objectIs => ?_
    have realizationIndex :=
      realization.walked objectWalked (List.subset_append_left _ _) old models
    refine (indexComplete realizationIndex indexTyping
      indexRan).bind indexWalked.framed.refines.size_le fun further old models indexIs => ?_
    have objectStill := (objectOver.substitute_eq old).trans objectIs
    exact yields.general further image models ⟨indexIs, objectStill⟩

/-- A conditional is given every type that both branches can have. -/
theorem conditional_complete (offset : Int) {test consequent alternate : Expression}
    (testComplete : Complete test) (consequentComplete : Complete consequent)
    (alternateComplete : Complete alternate) :
    Complete (.conditional offset test consequent alternate) := by
  intro inference after context params pending around model realization declared typed type image
    typing ran
  have situation := realization.situation
  cases typing with
  | conditional _ testTyping consequentTyping alternateTyping =>
    obtain ⟨typedTest, testType, first, testRan, testOver, testWalked, place⟩ :=
      situation.visit test
    obtain ⟨_, tested, testedRan, testSolves, -⟩ := unify_solves place.wellFormed.sound
      testOver (by simp : (Ty.primitive .bool).Over _) typedTest.offset
    have between := (place.walked testSolves.walked (by simp)).fewer (by simp : pending ⊆ _)
    obtain ⟨typedConsequent, consequentType, second, consequentRan, consequentOver,
      consequentWalked, placeSecond⟩ := between.visit consequent
    obtain ⟨typedAlternate, alternateType, third, alternateRan, alternateOver,
      alternateWalked, placeThird⟩ := placeSecond.visit alternate
    obtain ⟨_, _, branchRan, yields⟩ := branchType_yields placeThird.wellFormed
      (alternateWalked.covered consequentOver) alternateOver typedConsequent.offset
      typedAlternate.offset
    simp only [inferExpression_conditional, testRan, testedRan, consequentRan, alternateRan,
      branchRan] at ran
    obtain ⟨result, rfl⟩ := Prod.mk.inj ran
    obtain ⟨-, rfl⟩ := Prod.mk.inj result
    refine (testComplete realization testTyping testRan).bind
      testWalked.framed.refines.size_le fun middle old models testIs => ?_
    have realizationTest := realization.walked testWalked (List.subset_append_left _ _) old models
    have equates : Solver.Equates middle [(testType, .primitive .bool)] := by
      simp [Solver.Equates, testIs]
    refine (testSolves.extends models equates).bind testSolves.walked.framed.refines.size_le
      fun middle old models _ => ?_
    have realizationBranches :=
      (realizationTest.walked testSolves.walked (by simp) old models).fewer
        (by simp : pending ⊆ _)
    refine (consequentComplete realizationBranches consequentTyping
      consequentRan).bind consequentWalked.framed.refines.size_le
        fun middle old models consequentIs => ?_
    have realizationAlternate :=
      realizationBranches.walked consequentWalked (List.subset_append_left _ _) old models
    refine (alternateComplete realizationAlternate alternateTyping
      alternateRan).bind alternateWalked.framed.refines.size_le
        fun further old models alternateIs => ?_
    have consequentStill := (consequentOver.substitute_eq old).trans consequentIs
    exact yields.general further image models ⟨consequentStill, alternateIs⟩

/-- A function is given every type that its parameters and its body can have. -/
theorem arrow_complete (offset opening : Int) (parameters : List Parameter)
    (result : Option Ascription) {statements : List Statement}
    (bodyComplete : StatementsComplete statements) :
    Complete (.arrow offset parameters result { offset := opening, statements }) := by
  intro inference after context params pending around model realization declared typed type image
    typing ran
  have situation := realization.situation
  cases typing with
  | @arrow _ _ _ _ _ _ _ typedBody images image denote bodyTyping returns resultDenotes =>
    obtain ⟨types, store, paramsRan, invents⟩ :=
      bindParameters_invents parameters inference situation.wellFormed.sound
    obtain ⟨inner, innerOld, typesAre⟩ := invents.general model images denote
    have realizationInner := realization.enter invents innerOld
    rw [typesAre] at realizationInner
    have entered := realizationInner.situation
    obtain ⟨inferred, first, bound, bodyRan, inferredOver, bodyWalked⟩ :=
      inferStatements_walked statements _ entered.wellFormed
    have returnedOver : (returnedType inferred).Over first.store.cells.size := by
      rcases returnedType_mem inferred with member | isVoid
      · exact inferredOver _ member
      · simp [isVoid]
    obtain ⟨returned, second, ascribeRan, yields⟩ := ascribe_yields
      (bodyWalked.wellFormed entered.wellFormed) returnedOver result offset
    simp only [inferExpression_arrow, paramsRan, bodyRan, ascribeRan] at ran
    obtain ⟨outcome, rfl⟩ := Prod.mk.inj ran
    obtain ⟨-, rfl⟩ := Prod.mk.inj outcome
    have invented : Extends model inference
        { inference with
          store
          environment := bindEach id inference.environment parameters types
          undetermined := inference.undetermined ++ types }
        fun extended => extended = inner :=
      ⟨rfl, inner, innerOld, realizationInner.models, rfl⟩
    refine invented.bind invents.agrees.size_le fun _ _ _ isInner => ?_
    subst isInner
    have body := bodyComplete realizationInner bodyTyping bodyRan
    refine body.bind bodyWalked.framed.refines.size_le fun middle bodyOld models matching => ?_
    have returnedIs := matching.returned returns
    have ascribed : Extends middle first second
        fun extended => returned.substitute extended = image :=
      yields.general middle image models ⟨returnedIs, resultDenotes⟩
    obtain ⟨quiet, extended, old, modelsAfter, same⟩ := ascribed
    refine ⟨quiet, extended, old, modelsAfter, ?_⟩
    have typesStill : types.map (·.substitute extended) = images := by
      rw [← typesAre]
      refine List.map_congr_left fun type member => ?_
      have typeOver := invents.covered type member
      exact ((bodyWalked.covered typeOver).substitute_eq old).trans (typeOver.substitute_eq bodyOld)
    beta_reduce
    rw [Ty.substitute, Ty.substituteAll_eq_map, typesStill, same]

/-- A call is given every type that the callee can return for the arguments. -/
theorem call_complete (offset : Int) {callee : Expression} {arguments : List Expression}
    (calleeComplete : Complete callee) (argumentsComplete : ArgumentsComplete arguments) :
    Complete (.call offset callee arguments) := by
  intro inference after context params pending around model realization declared typed type image
    typing ran
  have situation := realization.situation
  cases typing with
  | call _ calleeTyping argumentsTyping =>
    obtain ⟨typedCallee, calleeType, first, calleeRan, calleeOver, calleeWalked, place⟩ :=
      situation.visit callee
    obtain ⟨reached, store, compressRan, agrees, same, reachedOver, following⟩ :=
      follow_spec place.wellFormed.sound calleeOver
    have between := (place.walked following (by simp)).fewer
      (by simp : pending ++ reached.vars ⊆ _)
    obtain ⟨inferred, second, argumentsRan, inferredOver, argumentsWalked⟩ :=
      inferArguments_walked arguments _ between.wellFormed
    have behind := argumentsWalked.wellFormed between.wellFormed
    obtain ⟨_, _, callRan, yields⟩ := callType_yields behind
      (argumentsWalked.covered reachedOver) inferredOver offset
    simp only [inferExpression_call, calleeRan, compressRan, argumentsRan, callRan] at ran
    obtain ⟨outcome, rfl⟩ := Prod.mk.inj ran
    obtain ⟨-, rfl⟩ := Prod.mk.inj outcome
    refine (calleeComplete realization calleeTyping calleeRan).bind
      calleeWalked.framed.refines.size_le fun middle old models calleeIs => ?_
    have realizationCallee :=
      realization.walked calleeWalked (List.subset_append_left _ _) old models
    have realizationReached := (realizationCallee.walked following (by simp) (fun _ _ => rfl)
      (agrees.models_iff.mpr models)).fewer (by simp : pending ++ reached.vars ⊆ _)
    have reachedIs := (models.eq_of_resolve_eq same).trans calleeIs
    have followed : Extends middle first { first with store } fun extended => extended = middle :=
      ⟨rfl, middle, fun _ _ => rfl, agrees.models_iff.mpr models, rfl⟩
    refine followed.bind agrees.size_le fun _ _ _ isMiddle => ?_
    subst isMiddle
    refine (argumentsComplete realizationReached argumentsTyping
      argumentsRan).bind argumentsWalked.framed.refines.size_le
        fun further old models argumentsAre => ?_
    refine yields.general further image models ?_
    rw [argumentsAre, reachedOver.substitute_eq old, reachedIs]

/-- Further elements are given the type of the first one, one after the other. -/
theorem elements_complete {expression : Expression} {rest : List Expression}
    (firstComplete : Complete expression) (restComplete : ElementsComplete rest) :
    ElementsComplete (expression :: rest) := by
  intro inference after context params pending around model element image realization inHand covered
    elementIs declared typed typing ran
  have situation := realization.situation
  cases typing with
  | cons firstTyping restTyping =>
    obtain ⟨typedFirst, type, first, firstRan, typeOver, walked, place⟩ :=
      situation.visit expression
    obtain ⟨_, unified, unifyRan, solves, -⟩ :=
      unify_solves place.wellFormed.sound (walked.covered covered) typeOver typedFirst.offset
    have knows : element.vars ++ type.vars ⊆
        params ++ (pending ++ type.vars) := by
      intro id member
      simp only [List.mem_append] at member ⊢
      exact .inr (member.imp_left (@inHand id))
    rcases restRan : (inferElements element rest).run unified with ⟨typedRest, last⟩
    simp only [inferElements_cons, firstRan, unifyRan, restRan] at ran
    obtain ⟨-, rfl⟩ := Prod.mk.inj ran
    refine (firstComplete realization firstTyping firstRan).bind
      walked.framed.refines.size_le fun middle old models firstIs => ?_
    have realizationFirst := realization.walked walked (List.subset_append_left _ _) old models
    have elementStill := (covered.substitute_eq old).trans elementIs
    have equates : Solver.Equates middle [(element, type)] := by
      simp [Solver.Equates, elementStill, firstIs]
    refine (solves.extends models equates).bind solves.walked.framed.refines.size_le
      fun further old models _ => ?_
    have realizationRest := (realizationFirst.walked solves.walked knows old models).fewer
      (by simp : pending ⊆ _)
    exact restComplete realizationRest inHand (solves.walked.covered (walked.covered covered))
      (((walked.covered covered).substitute_eq old).trans elementStill) restTyping restRan

/-- Arguments are given their types one after the other. -/
theorem arguments_complete {expression : Expression} {rest : List Expression}
    (firstComplete : Complete expression) (restComplete : ArgumentsComplete rest) :
    ArgumentsComplete (expression :: rest) := by
  intro inference after context params pending around model realization declared images inferred
    typing ran
  cases typing with
  | cons firstTyping restTyping =>
    obtain ⟨typed, type, first, firstRan, typeOver, walked, place⟩ :=
      realization.situation.visit expression
    rcases restRan : (inferArguments rest).run first with ⟨others, last⟩
    simp only [inferArguments_cons, firstRan, restRan] at ran
    obtain ⟨rfl, rfl⟩ := Prod.mk.inj ran
    refine (firstComplete realization firstTyping firstRan).bind
      walked.framed.refines.size_le fun middle old models firstIs => ?_
    have realizationRest := realization.walked walked (List.subset_append_left _ _) old models
    obtain ⟨quiet, extended, restOld, restModels, restAre⟩ :=
      restComplete realizationRest restTyping restRan
    refine ⟨quiet, extended, restOld, restModels, ?_⟩
    beta_reduce
    rw [List.map_cons, List.map_cons, restAre, typeOver.substitute_eq restOld, firstIs]

/-- Behind a constant the statements are given their types with the constant in scope. -/
theorem constant_complete (offset : Int) (id : Identifier) (ascription : Option Ascription)
    {initial : Expression} (earlier : Option Ty) {rest : List Statement}
    (initialComplete : Complete initial) (restComplete : StatementsComplete rest) :
    StatementsComplete (.constant offset id ascription initial earlier :: rest) := by
  intro inference after context params pending around model realization declared inferred typing
    ran
  cases typing with
  | @constant _ _ _ _ _ _ _ _ _ _ image initialTyping denotes restTyping =>
    obtain ⟨typedInitial, initialType, first, initialRan, initialOver, initialWalked, place⟩ :=
      realization.situation.visit initial
    obtain ⟨type, second, ascribeRan, yields⟩ :=
      ascribe_yields place.wellFormed initialOver ascription typedInitial.offset
    have walked : Walked inference second params type.vars [] :=
      (initialWalked.append yields.walked (List.subset_append_right _ _)).fewer
        (List.subset_append_of_subset_right _ (List.subset_append_right _ _))
    rcases restRan : (inferStatements rest).run
      { second with environment := (id.name, type) :: second.environment } with ⟨others, last⟩
    simp only [inferStatements_cons, inferStatement_constant, initialRan, ascribeRan, restRan]
      at ran
    obtain ⟨rfl, rfl⟩ := Prod.mk.inj ran
    have typeExtends : Extends model inference second
        fun extended => type.substitute extended = image :=
      (initialComplete realization initialTyping initialRan).bind
        initialWalked.framed.refines.size_le fun middle old models initialIs =>
          yields.general middle image models ⟨initialIs, denotes⟩
    refine typeExtends.bind walked.framed.refines.size_le fun middle old models typeIs => ?_
    have realizationRest := realization.declare id.name walked yields.covered old models
    rw [typeIs] at realizationRest
    obtain ⟨quiet, extended, restOld, restModels, matching⟩ :=
      restComplete realizationRest restTyping restRan
    have typeStill := (yields.covered.substitute_eq restOld).trans typeIs
    exact ⟨quiet, extended, restOld, restModels,
      .cons ⟨rfl, congrArg some typeStill.symm⟩ matching⟩

/-- Behind a return without an argument the statements are given their types. -/
theorem leaving_complete (offset : Int) (earlier : Option Ty) {rest : List Statement}
    (restComplete : StatementsComplete rest) :
    StatementsComplete (.returning offset none earlier :: rest) := by
  intro inference after context params pending around model realization declared inferred typing
    ran
  cases typing with
  | leaving _ _ restTyping =>
    rcases restRan : (inferStatements rest).run inference with ⟨others, last⟩
    have returned : (inferStatement (.returning offset none earlier)).run inference =
        ((.returning offset none (some (.primitive .void)), .primitive .void), inference) := rfl
    simp only [inferStatements_cons, returned, restRan] at ran
    obtain ⟨rfl, rfl⟩ := Prod.mk.inj ran
    refine (restComplete realization restTyping restRan).imp fun extended matching => ?_
    exact .cons ⟨rfl, rfl⟩ matching

/-- Behind a return with an argument the statements are given their types. -/
theorem returning_complete (offset : Int) {argument : Expression} (earlier : Option Ty)
    {rest : List Statement} (argumentComplete : Complete argument)
    (restComplete : StatementsComplete rest) :
    StatementsComplete (.returning offset (some argument) earlier :: rest) := by
  intro inference after context params pending around model realization declared inferred typing
    ran
  cases typing with
  | returning _ _ argumentTyping restTyping =>
    obtain ⟨typed, type, first, argumentRan, typeOver, walked, place⟩ :=
      realization.situation.visit argument
    rcases restRan : (inferStatements rest).run first with ⟨others, last⟩
    simp only [inferStatements_cons, inferStatement_returning, argumentRan, restRan] at ran
    obtain ⟨rfl, rfl⟩ := Prod.mk.inj ran
    refine (argumentComplete realization argumentTyping argumentRan).bind
      walked.framed.refines.size_le fun middle old models argumentIs => ?_
    have realizationRest := realization.walked walked (List.subset_append_left _ _) old models
    obtain ⟨quiet, extended, restOld, restModels, matching⟩ :=
      restComplete realizationRest restTyping restRan
    have typeStill := (typeOver.substitute_eq restOld).trans argumentIs
    exact ⟨quiet, extended, restOld, restModels,
      .cons ⟨rfl, congrArg some typeStill.symm⟩ matching⟩

mutual

/-- Without sums, an expression is given every type that it has in a typing. -/
theorem expression_complete (expression : Expression) (sumless : expression.Sumless) :
    Complete expression := by
  match expression with
  | .number offset value => exact number_complete offset value
  | .string offset value => exact string_complete offset value
  | .boolean offset value => exact boolean_complete offset value
  | .identifier identifier => exact identifier_complete identifier
  | .array offset [] => exact emptyArray_complete offset
  | .array offset (element :: rest) =>
    exact array_complete offset (expression_complete element sumless.1)
      (allElements_complete rest sumless.2)
  | .member offset object index =>
    exact member_complete offset (expression_complete object sumless.1)
      (expression_complete index sumless.2)
  | .binary offset left operator right => exact absurd sumless not_false
  | .conditional offset test consequent alternate =>
    exact conditional_complete offset (expression_complete test sumless.1)
      (expression_complete consequent sumless.2.1) (expression_complete alternate sumless.2.2)
  | .arrow offset parameters result { offset := opening, statements } =>
    exact arrow_complete offset opening parameters result
      (allStatements_complete statements sumless)
  | .call offset callee arguments =>
    exact call_complete offset (expression_complete callee sumless.1)
      (allArguments_complete arguments sumless.2)

/-- Without sums, all further elements of an array are given the type of the first one. -/
theorem allElements_complete (expressions : List Expression)
    (sumless : Expression.AllSumless expressions) : ElementsComplete expressions := by
  match expressions with
  | [] =>
    intro inference after context params pending around model element image realization _ _
      elementIs declared typed _ ran
    obtain ⟨-, rfl⟩ := Prod.mk.inj ran
    exact ⟨rfl, model, fun _ _ => rfl, realization.models, elementIs⟩
  | expression :: rest =>
    exact elements_complete (expression_complete expression sumless.1)
      (allElements_complete rest sumless.2)

/-- Without sums, all arguments are given the types that they have in a typing. -/
theorem allArguments_complete (expressions : List Expression)
    (sumless : Expression.AllSumless expressions) : ArgumentsComplete expressions := by
  match expressions with
  | [] =>
    intro inference after context params pending around model realization declared images inferred
      typing ran
    cases typing
    obtain ⟨rfl, rfl⟩ := Prod.mk.inj ran
    exact ⟨rfl, model, fun _ _ => rfl, realization.models, rfl⟩
  | expression :: rest =>
    exact arguments_complete (expression_complete expression sumless.1)
      (allArguments_complete rest sumless.2)

/-- Without sums, all statements are given the types that they have in a typing. -/
theorem allStatements_complete (statements : List Statement)
    (sumless : Statement.AllSumless statements) : StatementsComplete statements := by
  match statements with
  | [] =>
    intro inference after context params pending around model realization declared inferred typing
      ran
    cases typing
    obtain ⟨rfl, rfl⟩ := Prod.mk.inj ran
    exact ⟨rfl, model, fun _ _ => rfl, realization.models, .nil⟩
  | .constant offset id ascription initial earlier :: rest =>
    exact constant_complete offset id ascription earlier (expression_complete initial sumless.1)
      (allStatements_complete rest sumless.2)
  | .returning offset none earlier :: rest =>
    exact leaving_complete offset earlier (allStatements_complete rest sumless.2)
  | .returning offset (some argument) earlier :: rest =>
    exact returning_complete offset earlier (expression_complete argument sumless.1)
      (allStatements_complete rest sumless.2)

end

/-- Before a program there is nothing that could look otherwise than in a typing. -/
theorem realization_empty :
    Realization ({} : Store).solution {} [] [] [] [] where
  situation := situation_empty
  models := Store.sound_empty.acyclic.models
  entries := .nil
  around_eq := rfl

end Inferrer

/-- Some of the first statements of a body without sums have no sums. -/
theorem Statement.AllSumless.take {statements : List Statement}
    (sumless : Statement.AllSumless statements) (count : Nat) :
    Statement.AllSumless (statements.take count) := by
  induction count generalizing statements with
  | zero => exact trivial
  | succ count inductionHypothesis =>
    cases statements with
    | nil => exact trivial
    | cons statement rest => exact ⟨sumless.1, inductionHypothesis sumless.2⟩

/-- The type that is found for a top-level statement of a program without sums is principal:
every type that the statement has in a typing of the program up to there is a case of it. -/
theorem infer_principal {program : Program} (sumless : program.Sumless) (index : Nat)
    {typed : List Statement} (typing : StatementsTyping [] [] (program.body.take (index + 1)) typed)
    {type : Ty} (declared : typed[index]?.bind Statement.inferred = some type) :
    ∃ principal replacement,
      program.infer.1.body[index]?.bind Statement.inferred = some principal ∧
        type = principal.substitute replacement := by
  obtain ⟨head, middle, bound, headRan, headOver, headWalked⟩ :=
    Inferrer.inferStatements_walked (program.body.take (index + 1)) {} Inference.wellFormed_empty
  have middleFormed := headWalked.wellFormed Inference.wellFormed_empty
  obtain ⟨tail, after, more, tailRan, -, tailWalked⟩ :=
    Inferrer.inferStatements_walked (program.body.drop (index + 1)) middle middleFormed
  have ran : (Inferrer.inferStatements program.body).run {} = (head ++ tail, after) := by
    have split := Inferrer.inferStatements_append (program.body.take (index + 1))
      (program.body.drop (index + 1)) {}
    simpa only [List.take_append_drop, headRan, tailRan] using split
  obtain ⟨-, extended, -, models, matching⟩ := Inferrer.allStatements_complete _
    (sumless.take (index + 1)) Inferrer.realization_empty typing headRan
  obtain ⟨statement, atIndex, filled⟩ := Option.bind_eq_some_iff.mp declared
  obtain ⟨pair, found, typeIs⟩ := matching.at atIndex
  have covered : pair.2.Over middle.store.cells.size :=
    headOver pair.2 (List.mem_map_of_mem (List.mem_of_getElem? found))
  -- nothing that comes later concerns the type, since there are no parameters around it
  have still : after.store.resolve pair.2 = middle.store.resolve pair.2 := by
    refine tailWalked.framed.resolve_eq middleFormed.sound covered fun id _ => ?_
    rintro ⟨place, member, -⟩
    rw [headWalked.params_eq] at member
    exact List.not_mem_nil member
  refine ⟨after.store.resolve pair.2, extended, ?_, ?_⟩
  · have inWhole : (head ++ tail)[index]? = some pair := by
      rw [List.getElem?_append_left (List.getElem?_eq_some_iff.mp found).1, found]
    have carried := (Inferrer.inferStatements_filled ran).2 pair (List.mem_of_getElem? inWhole)
    simp only [Program.infer, ran, Inferrer.mapTypesAll_eq_map, List.getElem?_map, inWhole,
      Option.map_some, Option.bind_some, Inferrer.inferred_mapTypes, carried]
  · rw [still, models pair.2]
    exact Option.some.inj (filled.symm.trans typeIs)

/-- Inference has no problem with a program without sums that has a typing, and the types
that it finds for the top-level statements are principal. -/
theorem infer_complete {program : Program} (sumless : program.Sumless) {typed : List Statement}
    (typing : StatementsTyping [] [] program.body typed) :
    program.infer.2 = [] ∧
      ∀ (index : Nat) (others : List Statement) (type : Ty),
        StatementsTyping [] [] (program.body.take (index + 1)) others →
        others[index]?.bind Statement.inferred = some type →
        ∃ principal replacement,
          program.infer.1.body[index]?.bind Statement.inferred = some principal ∧
            type = principal.substitute replacement := by
  constructor
  · rcases ran : (Inferrer.inferStatements program.body).run {} with ⟨inferred, after⟩
    have complete := Inferrer.allStatements_complete program.body sumless
    obtain ⟨quiet, -⟩ := complete Inferrer.realization_empty typing ran
    simp only [Program.infer, ran]
    exact quiet
  · exact fun index others type typing declared => infer_principal sumless index typing declared

/-- The identity can be typed as a function on numbers, so it is inferred without a problem,
and the type that is found has that type as a case. -/
theorem infer_complete_identity :
    let use : Expression := .identifier { offset := 0, name := "x" }
    let identity : Expression := .arrow 0 [{ offset := 0, name := "x" }] none
      { offset := 0, statements := [.returning 0 (some use)] }
    let program : Program := { body := [.constant 0 { offset := 0, name := "id" } none identity] }
    program.infer.2 = [] ∧ ∃ principal replacement,
      program.infer.1.body[0]?.bind Statement.inferred = some principal ∧
        Ty.function [.primitive .number] (.primitive .number) =
          principal.substitute replacement := by
  intro use identity program
  let number : Ty := .primitive .number
  let typedBody : List Statement :=
    [.returning 0 (some use) (some number)]
  have used : ExpressionTyping [("x", .monomorphic number)] [number] use use number :=
    .identifier [number] rfl (Scheme.instance_monomorphic.mpr rfl)
  have returns : Returns typedBody number := by
    simp [Returns, typedBody, Statement.inferred, Statement.isReturn]
  have typing : StatementsTyping [] [] program.body
      [.constant 0 { offset := 0, name := "id" } none
        (.arrow 0 [{ offset := 0, name := "x" }] none { offset := 0, statements := typedBody })
        (some (.function [number] number))] :=
    .constant 0 none
      (.arrow 0 0 (.cons (.free 0 "x" none number) .nil) (.returning 0 none used (.nil _ _)) returns
        (by simp))
      (by simp) (.nil _ _)
  have sumless : program.Sumless := ⟨⟨trivial, trivial⟩, trivial⟩
  have complete := infer_complete sumless typing
  exact ⟨complete.1, complete.2 0 _ _ typing rfl⟩

end ArrowScript
