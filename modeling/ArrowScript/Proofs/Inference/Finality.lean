import ArrowScript.Proofs.Inference.Bodies

/-!
# The types of earlier statements are final

The types of a tree are looked at when inference is over, and every variable in them may
have been linked until then. Between the statements of a program there are no parameters,
and a walk links no older variables than those that the parameters reach. So what a
statement at the top level, or a statement inside it, has been given stands for the same
after any further statements, whether or not problems have been reported on the way.

For this all types that a tree carries have to be over the variables that there were when
it was filled in. A tree is described by how it depends on the change that is made to its
types: `Carries` says that only what happens to such types matters.
-/

namespace ArrowScript.Inferrer

/-- Changes of types that agree on all types over the variables of a store have the same
outcome. -/
def Carries {α : Type} (size : Nat) (form : (Ty → Ty) → α) : Prop :=
  ∀ ⦃change other : Ty → Ty⦄, (∀ term : Ty, term.Over size → change term = other term) →
    form change = form other

/-- What is over some variables is over more of them. -/
theorem Carries.mono {α : Type} {size larger : Nat} {form : (Ty → Ty) → α}
    (carries : Carries size form) (size_le : size ≤ larger) : Carries larger form :=
  fun _ _ agree => carries fun term covered => agree term (covered.mono size_le)

open Store

/-- There are never fewer variables behind a walk. -/
theorem Walked.size_le {before after : Inference} {known made : List VariableId}
    {bound : List (String × Ty)} (walked : Walked before after known made bound) :
    before.store.cells.size ≤ after.store.cells.size := walked.framed.refines.size_le

/-! ## The types that a walk fills in -/

/-- The types that any walk fills into an expression are over the variables behind it. -/
def ExpressionCarries (expression : Expression) : Prop :=
  ∀ inference : Inference, inference.WellFormed →
    Carries ((inferExpression expression).run inference).2.store.cells.size
      fun change => ((inferExpression expression).run inference).1.1.mapTypes change

/-- The same for the elements of an array. -/
def ElementsCarry (expressions : List Expression) : Prop :=
  ∀ (element : Ty) (inference : Inference), inference.WellFormed →
    element.Over inference.store.cells.size →
    Carries ((inferElements element expressions).run inference).2.store.cells.size
      fun change => Expression.mapTypesAll change
        ((inferElements element expressions).run inference).1

/-- The same for the arguments of a call. -/
def ArgumentsCarry (expressions : List Expression) : Prop :=
  ∀ inference : Inference, inference.WellFormed →
    Carries ((inferArguments expressions).run inference).2.store.cells.size
      fun change => Expression.mapTypesAll change
        (((inferArguments expressions).run inference).1.map (·.1))

/-- The same for a statement, with the type that it carries itself. -/
def StatementCarries (statement : Statement) : Prop :=
  ∀ inference : Inference, inference.WellFormed →
    Carries ((inferStatement statement).run inference).2.store.cells.size
      fun change => ((inferStatement statement).run inference).1.1.mapTypes change

/-- The same for several statements. -/
def StatementsCarry (statements : List Statement) : Prop :=
  ∀ inference : Inference, inference.WellFormed →
    Carries ((inferStatements statements).run inference).2.store.cells.size
      fun change => Statement.mapTypesAll change
        (((inferStatements statements).run inference).1.map (·.1))

section Parts

variable {first left right test consequent alternate object index callee initial : Expression}
  {rest arguments : List Expression} {statements : List Statement}

theorem array_carries (offset : Int) (firstCarries : ExpressionCarries first)
    (restCarry : ElementsCarry rest) : ExpressionCarries (.array offset (first :: rest)) := by
  intro inference wellFormed
  obtain ⟨typed, element, between, ran, covered, walked⟩ :=
    inferExpression_walked first inference wellFormed
  have betweenFormed := walked.wellFormed wellFormed
  obtain ⟨others, after, restRan, restWalked⟩ :=
    inferElements_walked element rest between betweenFormed covered
  have head := firstCarries inference wellFormed
  have tail := restCarry element between betweenFormed covered
  simp only [inferExpression_array, ran, restRan] at head tail ⊢
  have head := head.mono restWalked.size_le
  exact fun _ _ agree => by
    simp only [Expression.mapTypes, Expression.mapTypesAll, head agree, tail agree]

theorem member_carries (offset : Int) (objectCarries : ExpressionCarries object)
    (indexCarries : ExpressionCarries index) :
    ExpressionCarries (.member offset object index) := by
  intro inference wellFormed
  obtain ⟨typedObject, objectType, first, objectRan, objectOver, objectWalked⟩ :=
    inferExpression_walked object inference wellFormed
  have firstFormed := objectWalked.wellFormed wellFormed
  obtain ⟨typedIndex, indexType, second, indexRan, indexOver, indexWalked⟩ :=
    inferExpression_walked index first firstFormed
  obtain ⟨type, after, ran, yields⟩ := memberType_yields (indexWalked.wellFormed firstFormed)
    (indexWalked.covered objectOver) indexOver typedObject.offset typedIndex.offset
  have left := objectCarries inference wellFormed
  have right := indexCarries first firstFormed
  simp only [inferExpression_member, objectRan, indexRan, ran] at left right ⊢
  have right := right.mono yields.walked.size_le
  have left := left.mono (Nat.le_trans indexWalked.size_le yields.walked.size_le)
  exact fun _ _ agree => by simp only [Expression.mapTypes, left agree, right agree]

theorem binary_carries (offset : Int) (operator : String) (leftCarries : ExpressionCarries left)
    (rightCarries : ExpressionCarries right) :
    ExpressionCarries (.binary offset left operator right) := by
  intro inference wellFormed
  obtain ⟨typedLeft, leftType, first, leftRan, leftOver, leftWalked⟩ :=
    inferExpression_walked left inference wellFormed
  have firstFormed := leftWalked.wellFormed wellFormed
  obtain ⟨typedRight, rightType, second, rightRan, rightOver, rightWalked⟩ :=
    inferExpression_walked right first firstFormed
  have secondFormed := rightWalked.wellFormed firstFormed
  have one := leftCarries inference wellFormed
  have two := rightCarries first firstFormed
  rw [leftRan] at one
  rw [rightRan] at two
  have one := one.mono rightWalked.size_le
  by_cases sum : operator = "+"
  · subst sum
    obtain ⟨type, after, ran, adds⟩ := sumType_adds secondFormed (rightWalked.covered leftOver)
      rightOver typedLeft.offset typedRight.offset offset "+"
    simp only [inferExpression_sum, leftRan, rightRan, ran]
    have one := one.mono adds.walked.size_le
    have two := two.mono adds.walked.size_le
    exact fun _ _ agree => by simp only [Expression.mapTypes, one agree, two agree]
  · obtain ⟨type, after, ran, covered, walked, -⟩ :=
      refuse_spec secondFormed (.unsupportedOperator operator) offset
    simp only [inferExpression_binary offset left right inference sum, leftRan, rightRan, ran]
    have one := one.mono walked.size_le
    have two := two.mono walked.size_le
    exact fun _ _ agree => by simp only [Expression.mapTypes, one agree, two agree]

theorem conditional_carries (offset : Int) (testCarries : ExpressionCarries test)
    (consequentCarries : ExpressionCarries consequent)
    (alternateCarries : ExpressionCarries alternate) :
    ExpressionCarries (.conditional offset test consequent alternate) := by
  intro inference wellFormed
  obtain ⟨typedTest, testType, first, testRan, testOver, testWalked⟩ :=
    inferExpression_walked test inference wellFormed
  have firstFormed := testWalked.wellFormed wellFormed
  obtain ⟨_, tested, testedRan, testSolves, -⟩ := unify_solves firstFormed.sound testOver
    (by simp : (Ty.primitive .bool).Over _) typedTest.offset
  have testedFormed := testSolves.walked.wellFormed firstFormed
  obtain ⟨typedConsequent, consequentType, second, consequentRan, consequentOver,
    consequentWalked⟩ := inferExpression_walked consequent tested testedFormed
  have secondFormed := consequentWalked.wellFormed testedFormed
  obtain ⟨typedAlternate, alternateType, third, alternateRan, alternateOver,
    alternateWalked⟩ := inferExpression_walked alternate second secondFormed
  obtain ⟨type, after, ran, yields⟩ := branchType_yields
    (alternateWalked.wellFormed secondFormed) (alternateWalked.covered consequentOver)
    alternateOver typedConsequent.offset typedAlternate.offset
  have one := testCarries inference wellFormed
  have two := consequentCarries tested testedFormed
  have three := alternateCarries second secondFormed
  simp only [inferExpression_conditional, testRan, testedRan, consequentRan, alternateRan,
    ran] at one two three ⊢
  have three := three.mono yields.walked.size_le
  have two := two.mono (Nat.le_trans alternateWalked.size_le yields.walked.size_le)
  have upToTest := Nat.le_trans testSolves.walked.size_le consequentWalked.size_le
  have one := (one.mono upToTest).mono
    (Nat.le_trans alternateWalked.size_le yields.walked.size_le)
  exact fun _ _ agree => by
    simp only [Expression.mapTypes, one agree, two agree, three agree]

theorem arrow_carries (offset opening : Int) (params : List Parameter)
    (result : Option Ascription) (statementsCarry : StatementsCarry statements) :
    ExpressionCarries (.arrow offset params result { offset := opening, statements }) := by
  intro inference wellFormed
  obtain ⟨types, store, paramsRan, invents⟩ :=
    bindParameters_invents params inference wellFormed.sound
  have boundFormed := wellFormed_bound wellFormed invents
  obtain ⟨inferred, first, bound, bodyRan, inferredOver, bodyWalked⟩ :=
    inferStatements_walked statements _ boundFormed
  have returnedOver : (returnedType inferred).Over first.store.cells.size := by
    rcases returnedType_mem inferred with member | isVoid
    · exact inferredOver _ member
    · simp [isVoid]
  obtain ⟨type, second, ran, yields⟩ :=
    ascribe_yields (bodyWalked.wellFormed boundFormed) returnedOver result offset
  have body := statementsCarry _ boundFormed
  simp only [inferExpression_arrow, paramsRan, bodyRan, ran] at body ⊢
  have body := body.mono yields.walked.size_le
  exact fun _ _ agree => by simp only [Expression.mapTypes, body agree]

theorem call_carries (offset : Int) (calleeCarries : ExpressionCarries callee)
    (argumentsCarry : ArgumentsCarry arguments) :
    ExpressionCarries (.call offset callee arguments) := by
  intro inference wellFormed
  obtain ⟨typedCallee, calleeType, first, calleeRan, calleeOver, calleeWalked⟩ :=
    inferExpression_walked callee inference wellFormed
  have firstFormed := calleeWalked.wellFormed wellFormed
  obtain ⟨reached, store, compressRan, -, -, reachedOver, following⟩ :=
    follow_spec firstFormed.sound calleeOver
  have followedFormed := following.wellFormed firstFormed
  obtain ⟨inferred, second, argumentsRan, inferredOver, argumentsWalked⟩ :=
    inferArguments_walked arguments _ followedFormed
  obtain ⟨type, after, ran, yields⟩ := callType_yields
    (argumentsWalked.wellFormed followedFormed) (argumentsWalked.covered reachedOver)
    inferredOver offset
  have one := calleeCarries inference wellFormed
  have others := argumentsCarry _ followedFormed
  simp only [inferExpression_call, calleeRan, compressRan, argumentsRan, ran] at one others ⊢
  have others := others.mono yields.walked.size_le
  have one := ((one.mono following.size_le).mono argumentsWalked.size_le).mono
    yields.walked.size_le
  exact fun _ _ agree => by simp only [Expression.mapTypes, one agree, others agree]

theorem elements_carry (firstCarries : ExpressionCarries first) (restCarry : ElementsCarry rest) :
    ElementsCarry (first :: rest) := by
  intro element inference wellFormed covered
  obtain ⟨typed, type, second, ran, typeOver, walked⟩ :=
    inferExpression_walked first inference wellFormed
  have secondFormed := walked.wellFormed wellFormed
  obtain ⟨_, third, unifyRan, solves, -⟩ := unify_solves secondFormed.sound
    (walked.covered covered) typeOver typed.offset
  have thirdFormed := solves.walked.wellFormed secondFormed
  have elementOver := solves.walked.covered (walked.covered covered)
  obtain ⟨others, after, restRan, restWalked⟩ :=
    inferElements_walked element rest third thirdFormed elementOver
  have head := firstCarries inference wellFormed
  have tail := restCarry element third thirdFormed elementOver
  simp only [inferElements_cons, ran, unifyRan, restRan] at head tail ⊢
  have head := head.mono (Nat.le_trans solves.walked.size_le restWalked.size_le)
  exact fun _ _ agree => by simp only [Expression.mapTypesAll, head agree, tail agree]

theorem arguments_carry (firstCarries : ExpressionCarries first)
    (restCarry : ArgumentsCarry rest) : ArgumentsCarry (first :: rest) := by
  intro inference wellFormed
  obtain ⟨typed, type, second, ran, typeOver, walked⟩ :=
    inferExpression_walked first inference wellFormed
  have secondFormed := walked.wellFormed wellFormed
  obtain ⟨others, after, restRan, restOver, restWalked⟩ :=
    inferArguments_walked rest second secondFormed
  have head := firstCarries inference wellFormed
  have tail := restCarry second secondFormed
  simp only [inferArguments_cons, ran, restRan] at head tail ⊢
  have head := head.mono restWalked.size_le
  exact fun _ _ agree => by
    simp only [List.map_cons, Expression.mapTypesAll, head agree, tail agree]

theorem constant_carries (offset : Int) (id : Identifier) (ascription : Option Ascription)
    (earlier : Option Ty) (initialCarries : ExpressionCarries initial) :
    StatementCarries (.constant offset id ascription initial earlier) := by
  intro inference wellFormed
  obtain ⟨typed, type, first, ran, covered, walked⟩ :=
    inferExpression_walked initial inference wellFormed
  obtain ⟨ascribed, second, ascribeRan, yields⟩ :=
    ascribe_yields (walked.wellFormed wellFormed) covered ascription typed.offset
  have inside := initialCarries inference wellFormed
  simp only [inferStatement_constant, ran, ascribeRan] at inside ⊢
  have inside := inside.mono yields.walked.size_le
  exact fun _ _ agree => by
    simp only [Statement.mapTypes, Option.map_some, inside agree, agree ascribed yields.covered]

theorem leaving_carries (offset : Int) (earlier : Option Ty) :
    StatementCarries (.returning offset none earlier) := by
  intro inference _ _ _ agree
  have isVoid := agree (.primitive .void) (by simp)
  simp only [inferStatement, run_pure, Statement.mapTypes, Option.map_some, isVoid]

theorem returning_carries (offset : Int) (earlier : Option Ty)
    (argumentCarries : ExpressionCarries initial) :
    StatementCarries (.returning offset (some initial) earlier) := by
  intro inference wellFormed
  obtain ⟨typed, type, after, ran, covered, walked⟩ :=
    inferExpression_walked initial inference wellFormed
  have inside := argumentCarries inference wellFormed
  simp only [inferStatement_returning, ran] at inside ⊢
  exact fun _ _ agree => by
    simp only [Statement.mapTypes, Option.map_some, inside agree, agree type covered]

theorem statements_carry {statement : Statement} (firstCarries : StatementCarries statement)
    (restCarry : StatementsCarry statements) : StatementsCarry (statement :: statements) := by
  intro inference wellFormed
  obtain ⟨typed, type, second, bound, ran, typeOver, walked⟩ :=
    inferStatement_walked statement inference wellFormed
  have secondFormed := walked.wellFormed wellFormed
  obtain ⟨others, after, more, restRan, restOver, restWalked⟩ :=
    inferStatements_walked statements second secondFormed
  have head := firstCarries inference wellFormed
  have tail := restCarry second secondFormed
  simp only [inferStatements_cons, ran, restRan] at head tail ⊢
  have head := head.mono restWalked.size_le
  exact fun _ _ agree => by
    simp only [List.map_cons, Statement.mapTypesAll, head agree, tail agree]

end Parts

mutual

/-- The types in an inferred expression are over the variables behind its walk. -/
theorem inferExpression_carries (expression : Expression) : ExpressionCarries expression := by
  match expression with
  | .number _ _ | .string _ _ | .boolean _ _ | .identifier _ | .array _ [] =>
    exact fun _ _ _ _ _ => rfl
  | .array offset (first :: rest) =>
    exact array_carries offset (inferExpression_carries first) (inferElements_carry rest)
  | .member offset object index =>
    exact member_carries offset (inferExpression_carries object) (inferExpression_carries index)
  | .binary offset left operator right =>
    exact binary_carries offset operator (inferExpression_carries left)
      (inferExpression_carries right)
  | .conditional offset test consequent alternate =>
    exact conditional_carries offset (inferExpression_carries test)
      (inferExpression_carries consequent) (inferExpression_carries alternate)
  | .arrow offset params result { offset := opening, statements } =>
    exact arrow_carries offset opening params result (inferStatements_carry statements)
  | .call offset callee arguments =>
    exact call_carries offset (inferExpression_carries callee) (inferArguments_carry arguments)

/-- The types in inferred elements are over the variables behind their walk. -/
theorem inferElements_carry (expressions : List Expression) : ElementsCarry expressions := by
  match expressions with
  | [] => exact fun _ _ _ _ _ _ _ => rfl
  | first :: rest =>
    exact elements_carry (inferExpression_carries first) (inferElements_carry rest)

/-- The types in inferred arguments are over the variables behind their walk. -/
theorem inferArguments_carry (expressions : List Expression) : ArgumentsCarry expressions := by
  match expressions with
  | [] => exact fun _ _ _ _ _ => rfl
  | first :: rest =>
    exact arguments_carry (inferExpression_carries first) (inferArguments_carry rest)

/-- The types in an inferred statement are over the variables behind its walk. -/
theorem inferStatement_carries (statement : Statement) : StatementCarries statement := by
  match statement with
  | .constant offset id ascription initial earlier =>
    exact constant_carries offset id ascription earlier (inferExpression_carries initial)
  | .returning offset none earlier => exact leaving_carries offset earlier
  | .returning offset (some argument) earlier =>
    exact returning_carries offset earlier (inferExpression_carries argument)

/-- The types in inferred statements are over the variables behind their walk. -/
theorem inferStatements_carry (statements : List Statement) : StatementsCarry statements := by
  match statements with
  | [] => exact fun _ _ _ _ _ => rfl
  | first :: rest =>
    exact statements_carry (inferStatement_carries first) (inferStatements_carry rest)

end

/-! ## Further statements -/

/-- Where no parameters are around, a walk changes nothing that older types stand for. -/
theorem Walked.resolve_eq {before after : Inference} {made : List VariableId}
    {bound : List (String × Ty)} (walked : Walked before after [] made bound)
    (sound : before.store.Sound) {term : Ty} (covered : term.Over before.store.cells.size) :
    after.store.resolve term = before.store.resolve term := by
  refine walked.framed.resolve_eq sound covered fun id _ reached => ?_
  obtain ⟨_, absurd, _⟩ := reached
  exact List.not_mem_nil absurd

end Inferrer

/-- The types in a program are not changed by statements behind it, and neither are its
problems: the tree of the program comes first, at every depth with the types that it has
alone, and the diagnostics of the program come before all others. -/
theorem infer_prefix (first rest : List Statement) :
    (Program.infer { body := first ++ rest }).1.body.take first.length =
        (Program.infer { body := first }).1.body ∧
      (Program.infer { body := first }).2 <+: (Program.infer { body := first ++ rest }).2 := by
  have formed := Inference.wellFormed_empty
  obtain ⟨inferred, between, bound, ran, -, walked⟩ :=
    Inferrer.inferStatements_walked first {} formed
  have betweenFormed := walked.wellFormed formed
  obtain ⟨others, after, more, restRan, -, restWalked⟩ :=
    Inferrer.inferStatements_walked rest between betweenFormed
  have whole := Inferrer.inferStatements_append first rest {}
  have carries := Inferrer.inferStatements_carry first {} formed
  simp only [ran, restRan] at whole carries
  -- the top level has no parameters, so the second walk knows no variables at all
  rw [walked.params_eq] at restWalked
  have still := carries fun term covered => restWalked.resolve_eq betweenFormed.sound covered
  have length : first.length =
      (Statement.mapTypesAll after.store.resolve (inferred.map (·.1))).length := by
    have same := congrArg List.length (Inferrer.inferStatements_filled ran).1
    simpa only [Inferrer.mapTypesAll_eq_map, List.length_map] using same.symm
  constructor
  · simp only [Program.infer, whole, ran, List.map_append, Inferrer.mapTypesAll_eq_map,
      List.map_append] at still length ⊢
    rw [length, List.take_left', still]
    rfl
  · simp only [Program.infer, whole, ran]
    exact restWalked.diagnostics

end ArrowScript
