import ArrowScript.Proofs.Inference.Sums

/-!
# Walks over trees

One equation for each form of expression and statement says of which steps its walk is
composed. From these it is shown by induction over the tree that every walk satisfies
the frame condition of the parameters around it, whether or not it reports problems, and
that it leaves a well-formed state behind.
-/

namespace ArrowScript.Inferrer

open Store

/-! ## The steps of a walk -/

/-- The walk over an array goes on with the type of its first element. -/
theorem inferExpression_array (offset : Int) (first : Expression) (rest : List Expression)
    (inference : Inference) :
    (inferExpression (.array offset (first :: rest))).run inference =
      let head := (inferExpression first).run inference
      let tail := (inferElements head.1.2 rest).run head.2
      ((.array offset (head.1.1 :: tail.1), .array head.1.2), tail.2) := rfl

/-- The walk over an index. -/
theorem inferExpression_member (offset : Int) (object index : Expression)
    (inference : Inference) :
    (inferExpression (.member offset object index)).run inference =
      let first := (inferExpression object).run inference
      let second := (inferExpression index).run first.2
      let element := (memberType first.1.2 second.1.2 first.1.1.offset second.1.1.offset).run
        second.2
      ((.member offset first.1.1 second.1.1, element.1), element.2) := rfl

/-- The walk over a sum. -/
theorem inferExpression_sum (offset : Int) (left right : Expression) (inference : Inference) :
    (inferExpression (.binary offset left "+" right)).run inference =
      let first := (inferExpression left).run inference
      let second := (inferExpression right).run first.2
      let sum := (sumType first.1.2 second.1.2 first.1.1.offset second.1.1.offset offset "+").run
        second.2
      ((.binary offset first.1.1 "+" second.1.1, sum.1), sum.2) := rfl

/-- The walk over a binary expression that is no sum. -/
theorem inferExpression_binary (offset : Int) (left : Expression) {operator : String}
    (right : Expression) (inference : Inference) (unsupported : operator ≠ "+") :
    (inferExpression (.binary offset left operator right)).run inference =
      let first := (inferExpression left).run inference
      let second := (inferExpression right).run first.2
      let refused := (do report [.unsupportedOperator operator] offset; freshVariable).run second.2
      ((.binary offset first.1.1 operator second.1.1, refused.1), refused.2) := by
  rw [inferExpression, run_bind, run_bind]
  simp only [if_neg unsupported]
  rfl

/-- The walk over a conditional. -/
theorem inferExpression_conditional (offset : Int) (test consequent alternate : Expression)
    (inference : Inference) :
    (inferExpression (.conditional offset test consequent alternate)).run inference =
      let first := (inferExpression test).run inference
      let tested := (unify first.1.2 (.primitive .bool) first.1.1.offset).run first.2
      let second := (inferExpression consequent).run tested.2
      let third := (inferExpression alternate).run second.2
      let branch := (branchType second.1.2 third.1.2 second.1.1.offset third.1.1.offset).run
        third.2
      ((.conditional offset first.1.1 second.1.1 third.1.1, branch.1), branch.2) := rfl

/-- The type that a function body returns without an ascription: that of its first return
statement. -/
def returnedType (body : List (Statement × Ty)) : Ty :=
  ((body.find? (·.1.isReturn)).map (·.2)).getD (.primitive .void)

/-- The walk over a function. Its scope is left behind it. -/
theorem inferExpression_arrow (offset opening : Int) (params : List Parameter)
    (result : Option Ascription) (statements : List Statement) (inference : Inference) :
    (inferExpression (.arrow offset params result { offset := opening, statements })).run
        inference =
      let bound := (bindParameters params).run inference
      let body := (inferStatements statements).run bound.2
      let returned := (ascribe (returnedType body.1) result offset).run body.2
      ((.arrow offset params result { offset := opening, statements := body.1.map (·.1) },
          .function bound.1 returned.1),
        { returned.2 with
          environment := inference.environment
          undetermined := inference.undetermined }) := by
  cases result <;> rfl

/-- The walk over a call. The callee is looked at before the arguments. -/
theorem inferExpression_call (offset : Int) (callee : Expression) (arguments : List Expression)
    (inference : Inference) :
    (inferExpression (.call offset callee arguments)).run inference =
      let first := (inferExpression callee).run inference
      let reached := (solve (Solver.compress first.1.2)).run first.2
      let others := (inferArguments arguments).run reached.2
      let called := (callType reached.1 others.1 offset).run others.2
      ((.call offset first.1.1 (others.1.map (·.1)), called.1), called.2) := rfl

/-- The walk over further elements of an array. -/
theorem inferElements_cons (element : Ty) (first : Expression) (rest : List Expression)
    (inference : Inference) :
    (inferElements element (first :: rest)).run inference =
      let head := (inferExpression first).run inference
      let unified := (unify element head.1.2 head.1.1.offset).run head.2
      let tail := (inferElements element rest).run unified.2
      (head.1.1 :: tail.1, tail.2) := rfl

/-- The walk over arguments. -/
theorem inferArguments_cons (first : Expression) (rest : List Expression)
    (inference : Inference) :
    (inferArguments (first :: rest)).run inference =
      let head := (inferExpression first).run inference
      let tail := (inferArguments rest).run head.2
      (head.1 :: tail.1, tail.2) := rfl

/-- The walk over a constant declaration. -/
theorem inferStatement_constant (offset : Int) (id : Identifier)
    (ascription : Option Ascription) (initial : Expression) (earlier : Option Ty)
    (inference : Inference) :
    (inferStatement (.constant offset id ascription initial earlier)).run inference =
      let value := (inferExpression initial).run inference
      let ascribed := (ascribe value.1.2 ascription value.1.1.offset).run value.2
      ((.constant offset id ascription value.1.1 (some ascribed.1), ascribed.1),
        { ascribed.2 with environment := (id.name, ascribed.1) :: ascribed.2.environment }) := by
  cases ascription <;> rfl

/-- The walk over a return statement with an argument. -/
theorem inferStatement_returning (offset : Int) (argument : Expression) (earlier : Option Ty)
    (inference : Inference) :
    (inferStatement (.returning offset (some argument) earlier)).run inference =
      let value := (inferExpression argument).run inference
      ((.returning offset (some value.1.1) (some value.1.2), value.1.2), value.2) := rfl

/-- The walk over several statements. -/
theorem inferStatements_cons (first : Statement) (rest : List Statement)
    (inference : Inference) :
    (inferStatements (first :: rest)).run inference =
      let head := (inferStatement first).run inference
      let tail := (inferStatements rest).run head.2
      (head.1 :: tail.1, tail.2) := rfl

/-! ## The frame of a walk -/

/-- A body returns the type of one of its statements, or `Void`. -/
theorem returnedType_mem (body : List (Statement × Ty)) :
    returnedType body ∈ body.map (·.2) ∨ returnedType body = .primitive .void := by
  rw [returnedType]
  cases found : body.find? (·.1.isReturn) with
  | none => exact .inr rfl
  | some statement => exact .inl (List.mem_map_of_mem (List.mem_of_find?_eq_some found))

/-- What is bound to parameters are their types, and everything else was bound before. -/
theorem forall_mem_bindEach {α : Type} {entry : Ty → α} {holds : α → Prop}
    {bound : List (String × α)} (before : ∀ pair ∈ bound, holds pair.2)
    {types : List Ty} (new : ∀ type ∈ types, holds (entry type)) (params : List Parameter) :
    ∀ pair ∈ bindEach entry bound params types, holds pair.2 := by
  induction params generalizing bound types with
  | nil => exact before
  | cons param rest inductionHypothesis =>
    cases types with
    | nil => exact before
    | cons type others =>
      refine inductionHypothesis ?_ fun other member => new other (.tail _ member)
      intro pair member
      rcases List.mem_cons.mp member with rfl | older
      · exact new type (.head _)
      · exact before pair older

/-- The state in which a function body is inferred is well-formed. -/
theorem wellFormed_bound {inference : Inference} (wellFormed : inference.WellFormed)
    {store : Store} {params : List Parameter} {types : List Ty}
    (invents : Invents inference.store store (Parameter.DenoteAll params) types) :
    Inference.WellFormed
      { inference with
        store
        environment := bindEach id inference.environment params types
        undetermined := inference.undetermined ++ types } where
  sound := invents.agrees.sound wellFormed.sound
  environment := by
    have before (entry : String × Ty) (member : entry ∈ inference.environment) :
        entry.2.Over store.cells.size :=
      (wellFormed.environment entry member).mono invents.agrees.size_le
    exact forall_mem_bindEach before invents.covered params
  undetermined type member := by
    rcases List.mem_append.mp member with older | new
    · exact (wellFormed.undetermined type older).mono invents.agrees.size_le
    · exact invents.covered type new

variable {inference after : Inference}

/-- What the walk over an expression guarantees. -/
def WalksTo (inference : Inference) (type : Ty) (after : Inference)
    (bound : List (String × Ty)) : Prop :=
  type.Over after.store.cells.size ∧
    Walked inference after inference.params type.vars bound

/-- The walk over a constant declaration satisfies the frame condition when the walk over its
value does. It binds the name. -/
theorem constant_walked {initial typed : Expression} {type : Ty} {first : Inference}
    (wellFormed : inference.WellFormed) (offset : Int) (id : Identifier)
    (ascription : Option Ascription) (earlier : Option Ty)
    (ran : (inferExpression initial).run inference = ((typed, type), first))
    (walks : WalksTo inference type first []) :
    ∃ ascribed after,
      (inferStatement (.constant offset id ascription initial earlier)).run inference =
        ((.constant offset id ascription typed (some ascribed), ascribed), after) ∧
      WalksTo inference ascribed after [(id.name, ascribed)] := by
  obtain ⟨covered, walked⟩ := walks
  obtain ⟨ascribed, second, ascribeRan, yields⟩ :=
    ascribe_yields (walked.wellFormed wellFormed) covered ascription typed.offset
  have whole := (walked.append yields.walked (List.subset_append_right _ _)).fewer
    (fun id member => by simp [member] : ascribed.vars ⊆ _)
  refine ⟨ascribed, { second with environment := (id.name, ascribed) :: second.environment },
    ?_, yields.covered, ?_⟩
  · simp only [inferStatement_constant, ran, ascribeRan]
  · exact
      { framed := whole.framed
        environment := congrArg ((id.name, ascribed) :: ·) whole.environment
        boundOver := by simpa using yields.covered
        undetermined := whole.undetermined
        diagnostics := whole.diagnostics }

mutual

/-- The walk over an expression satisfies the frame condition. -/
theorem inferExpression_walked (expression : Expression) (inference : Inference)
    (wellFormed : inference.WellFormed) :
    ∃ typed type after, (inferExpression expression).run inference = ((typed, type), after) ∧
      WalksTo inference type after [] := by
  have nothing : Walked inference inference inference.params [] [] :=
    (walked_store (.of_agrees (.refl _) wellFormed.sound)).wider wellFormed.sound
      wellFormed.params_old (List.nil_subset _)
  match expression with
  | .number offset value =>
    refine ⟨_, _, _, rfl, ?_⟩
    rw [numeralType]
    split <;> exact ⟨trivial, nothing⟩
  | .string offset value => exact ⟨_, _, _, rfl, trivial, nothing⟩
  | .boolean offset value => exact ⟨_, _, _, rfl, trivial, nothing⟩
  | .identifier identifier =>
    obtain ⟨type, after, ran, covered, walked⟩ := lookup_walked wellFormed identifier.name
    refine ⟨.identifier identifier, type, after, ?_, covered, walked⟩
    rw [inferExpression, run_bind, ran, run_pure]
  | .array offset [] =>
    obtain ⟨store, ran, agrees, size, added⟩ := freshVariable_spec wellFormed.sound
    refine ⟨.array offset [], .array (.var inference.store.cells.size), { inference with store },
      ?_, ?_, ?_⟩
    · rw [inferExpression, run_bind, ran, run_pure]
    · simp [size]
    · exact added.wider wellFormed.sound wellFormed.params_old (List.nil_subset _)
  | .array offset (first :: rest) =>
    obtain ⟨typed, element, between, ran, covered, walked⟩ :=
      inferExpression_walked first inference wellFormed
    obtain ⟨others, after, restRan, restWalked⟩ :=
      inferElements_walked element rest between (walked.wellFormed wellFormed) covered
    refine ⟨.array offset (typed :: others), .array element, after, ?_,
      restWalked.covered covered, ?_⟩
    · simp only [inferExpression_array, ran, restRan]
    · rw [walked.params_eq] at restWalked
      exact (walked.append restWalked (List.Subset.refl _)).fewer (by simp)
  | .member offset object index =>
    obtain ⟨typedObject, objectType, first, objectRan, objectOver, objectWalked⟩ :=
      inferExpression_walked object inference wellFormed
    have firstFormed := objectWalked.wellFormed wellFormed
    obtain ⟨typedIndex, indexType, second, indexRan, indexOver, indexWalked⟩ :=
      inferExpression_walked index first firstFormed
    have secondFormed := indexWalked.wellFormed firstFormed
    obtain ⟨type, after, ran, yields⟩ := memberType_yields secondFormed
      (indexWalked.covered objectOver) indexOver typedObject.offset typedIndex.offset
    refine ⟨.member offset typedObject typedIndex, type, after, ?_, yields.covered, ?_⟩
    · simp only [inferExpression_member, objectRan, indexRan, ran]
    · rw [objectWalked.params_eq] at indexWalked
      have parts := objectWalked.append indexWalked (List.subset_append_left _ _)
      have whole := parts.append yields.walked (by simp)
      exact whole.fewer fun id member => by simp [member]
  | .binary offset left operator right =>
    obtain ⟨typedLeft, leftType, first, leftRan, leftOver, leftWalked⟩ :=
      inferExpression_walked left inference wellFormed
    have firstFormed := leftWalked.wellFormed wellFormed
    obtain ⟨typedRight, rightType, second, rightRan, rightOver, rightWalked⟩ :=
      inferExpression_walked right first firstFormed
    have secondFormed := rightWalked.wellFormed firstFormed
    rw [leftWalked.params_eq] at rightWalked
    have parts := leftWalked.append rightWalked (List.subset_append_left _ _)
    by_cases sum : operator = "+"
    · subst sum
      obtain ⟨type, after, ran, adds⟩ := sumType_adds secondFormed (rightWalked.covered leftOver)
        rightOver typedLeft.offset typedRight.offset offset "+"
      refine ⟨.binary offset typedLeft "+" typedRight, type, after, ?_, adds.covered, ?_⟩
      · simp only [inferExpression_sum, leftRan, rightRan, ran]
      · exact (parts.append adds.walked (by simp)).fewer fun id member => by simp [member]
    · obtain ⟨type, after, ran, covered, walked, -⟩ :=
        refuse_spec secondFormed (.unsupportedOperator operator) offset
      refine ⟨.binary offset typedLeft operator typedRight, type, after, ?_, covered, ?_⟩
      · simp only [inferExpression_binary offset left right inference sum, leftRan, rightRan, ran]
      · exact (parts.append walked (by simp)).fewer fun id member => by simp [member]
  | .conditional offset test consequent alternate =>
    obtain ⟨typedTest, testType, first, testRan, testOver, testWalked⟩ :=
      inferExpression_walked test inference wellFormed
    have firstFormed := testWalked.wellFormed wellFormed
    obtain ⟨_, tested, testedRan, testSolves, -⟩ := unify_solves firstFormed.sound testOver
      (by simp : (Ty.primitive .bool).Over _) typedTest.offset
    have testedFormed := testSolves.walked.wellFormed firstFormed
    obtain ⟨typedConsequent, consequentType, second, consequentRan, consequentOver,
      consequentWalked⟩ := inferExpression_walked consequent tested testedFormed
    have secondFormed := consequentWalked.wellFormed testedFormed
    obtain ⟨typedAlternate, alternateType, third, alternateRan, alternateOver,
      alternateWalked⟩ := inferExpression_walked alternate second secondFormed
    have thirdFormed := alternateWalked.wellFormed secondFormed
    obtain ⟨type, after, ran, yields⟩ := branchType_yields thirdFormed
      (alternateWalked.covered consequentOver) alternateOver typedConsequent.offset
      typedAlternate.offset
    refine ⟨.conditional offset typedTest typedConsequent typedAlternate, type, after, ?_,
      yields.covered, ?_⟩
    · simp only [inferExpression_conditional, testRan, testedRan, consequentRan, alternateRan, ran]
    · rw [consequentWalked.params_eq, testSolves.walked.params_eq, testWalked.params_eq]
        at alternateWalked
      rw [testSolves.walked.params_eq, testWalked.params_eq] at consequentWalked
      have start := testWalked.append testSolves.walked (by simp)
      have parts := (start.append consequentWalked (by simp)).append alternateWalked (by simp)
      exact (parts.append yields.walked (by simp)).fewer fun id member => by simp [member]
  | .arrow offset params result { offset := opening, statements } =>
    obtain ⟨types, store, paramsRan, invents⟩ :=
      bindParameters_invents params inference wellFormed.sound
    have boundFormed := wellFormed_bound wellFormed invents
    obtain ⟨inferred, first, bound, bodyRan, inferredOver, bodyWalked⟩ :=
      inferStatements_walked statements _ boundFormed
    have firstFormed := bodyWalked.wellFormed boundFormed
    have returnedOver : (returnedType inferred).Over first.store.cells.size := by
      rcases returnedType_mem inferred with member | isVoid
      · exact inferredOver _ member
      · simp [isVoid]
    obtain ⟨type, second, ran, yields⟩ := ascribe_yields firstFormed returnedOver result offset
    refine ⟨.arrow offset params result
        { offset := opening, statements := inferred.map (·.1) }, .function types type,
      { second with
        environment := inference.environment
        undetermined := inference.undetermined }, ?_, ?_, ?_⟩
    · simp only [inferExpression_arrow, paramsRan, bodyRan, ran]
    · simp only [Ty.Over, Ty.allOver_iff]
      refine ⟨fun param member => ?_, yields.covered⟩
      exact yields.walked.covered (bodyWalked.covered (invents.covered param member))
    · have returnedKnown : (returnedType inferred).vars ⊆
          Ty.varsOf (inference.undetermined ++ types) ++
            Ty.varsOf (inferred.map (·.2)) := by
        intro id occurs
        rcases returnedType_mem inferred with member | isVoid
        · exact List.mem_append_right _ (Ty.mem_varsOf.mpr ⟨_, member, occurs⟩)
        · simp [isVoid] at occurs
      have inner := bodyWalked.append yields.walked returnedKnown
      have start := (invents.framed wellFormed.sound).wider wellFormed.sound
        wellFormed.params_old (List.nil_subset _)
      have whole := start.append inner.framed (by
        simp [Inference.params, Ty.varsOf_append])
      exact
        { framed := whole.fewer fun id member => by
            simp only [Ty.vars, List.mem_append] at member ⊢
            tauto
          environment := rfl
          boundOver := by simp
          undetermined := rfl
          diagnostics := inner.diagnostics }
  | .call offset callee arguments =>
    obtain ⟨typedCallee, calleeType, first, calleeRan, calleeOver, calleeWalked⟩ :=
      inferExpression_walked callee inference wellFormed
    have firstFormed := calleeWalked.wellFormed wellFormed
    obtain ⟨reached, store, compressRan, -, -, reachedOver, following⟩ :=
      follow_spec firstFormed.sound calleeOver
    have followedFormed := following.wellFormed firstFormed
    obtain ⟨inferred, second, argumentsRan, inferredOver, argumentsWalked⟩ :=
      inferArguments_walked arguments _ followedFormed
    have secondFormed := argumentsWalked.wellFormed followedFormed
    obtain ⟨type, after, ran, yields⟩ := callType_yields secondFormed
      (argumentsWalked.covered reachedOver) inferredOver offset
    refine ⟨.call offset typedCallee (inferred.map (·.1)), type, after, ?_, yields.covered, ?_⟩
    · simp only [inferExpression_call, calleeRan, compressRan, argumentsRan, ran]
    · rw [following.params_eq, calleeWalked.params_eq] at argumentsWalked
      have parts := (calleeWalked.append following (by simp)).append argumentsWalked (by simp)
      exact (parts.append yields.walked (by simp)).fewer fun id member => by simp [member]

/-- The walk over further elements of an array satisfies the frame condition. -/
theorem inferElements_walked (element : Ty) (expressions : List Expression)
    (inference : Inference) (wellFormed : inference.WellFormed)
    (covered : element.Over inference.store.cells.size) :
    ∃ typed after, (inferElements element expressions).run inference = (typed, after) ∧
      Walked inference after (inference.params ++ element.vars) [] [] := by
  have old (id : VariableId) (member : id ∈ inference.params ++ element.vars) :
      id < inference.store.cells.size :=
    (List.mem_append.mp member).elim (wellFormed.params_old id) covered.lt
  match expressions with
  | [] =>
    have nothing : Walked inference inference [] [] [] :=
      walked_store (.of_agrees (.refl _) wellFormed.sound)
    exact ⟨[], inference, rfl, nothing.wider wellFormed.sound old (List.nil_subset _)⟩
  | first :: rest =>
    obtain ⟨typed, type, second, ran, typeOver, walked⟩ :=
      inferExpression_walked first inference wellFormed
    have secondFormed := walked.wellFormed wellFormed
    obtain ⟨_, third, unifyRan, solves, -⟩ := unify_solves secondFormed.sound
      (walked.covered covered) typeOver typed.offset
    have thirdFormed := solves.walked.wellFormed secondFormed
    obtain ⟨others, after, restRan, restWalked⟩ := inferElements_walked element rest third
      thirdFormed (solves.walked.covered (walked.covered covered))
    refine ⟨typed :: others, after, ?_, ?_⟩
    · simp only [inferElements_cons, ran, unifyRan, restRan]
    · rw [solves.walked.params_eq, walked.params_eq] at restWalked
      have start := walked.wider wellFormed.sound old (List.subset_append_left _ _)
      have parts := start.append solves.walked (by simp)
      exact (parts.append restWalked (by simp)).fewer (by simp)

/-- The walk over arguments satisfies the frame condition. -/
theorem inferArguments_walked (expressions : List Expression) (inference : Inference)
    (wellFormed : inference.WellFormed) :
    ∃ inferred after, (inferArguments expressions).run inference = (inferred, after) ∧
      (∀ type ∈ inferred.map (·.2), type.Over after.store.cells.size) ∧
      Walked inference after inference.params (Ty.varsOf (inferred.map (·.2))) [] := by
  match expressions with
  | [] =>
    have nothing : Walked inference inference [] [] [] :=
      walked_store (.of_agrees (.refl _) wellFormed.sound)
    exact ⟨[], inference, rfl, by simp, nothing.wider wellFormed.sound wellFormed.params_old
      (List.nil_subset _)⟩
  | first :: rest =>
    obtain ⟨typed, type, second, ran, typeOver, walked⟩ :=
      inferExpression_walked first inference wellFormed
    obtain ⟨others, after, restRan, restOver, restWalked⟩ :=
      inferArguments_walked rest second (walked.wellFormed wellFormed)
    refine ⟨(typed, type) :: others, after, ?_, ?_, ?_⟩
    · simp only [inferArguments_cons, ran, restRan]
    · rw [List.map_cons, List.forall_mem_cons]
      exact ⟨restWalked.covered typeOver, restOver⟩
    · rw [walked.params_eq] at restWalked
      exact walked.append restWalked (List.subset_append_left _ _)

/-- The walk over a statement satisfies the frame condition. -/
theorem inferStatement_walked (statement : Statement) (inference : Inference)
    (wellFormed : inference.WellFormed) :
    ∃ typed type after bound,
      (inferStatement statement).run inference = ((typed, type), after) ∧
      WalksTo inference type after bound := by
  match statement with
  | .constant offset id ascription initial earlier =>
    obtain ⟨typed, type, first, ran, walks⟩ := inferExpression_walked initial inference wellFormed
    obtain ⟨ascribed, after, whole, walked⟩ :=
      constant_walked wellFormed offset id ascription earlier ran walks
    exact ⟨_, ascribed, after, _, whole, walked⟩
  | .returning offset none earlier =>
    have nothing : Walked inference inference [] [] [] :=
      walked_store (.of_agrees (.refl _) wellFormed.sound)
    exact ⟨_, _, _, [], rfl, trivial, nothing.wider wellFormed.sound wellFormed.params_old
      (List.nil_subset _)⟩
  | .returning offset (some argument) earlier =>
    obtain ⟨typed, type, after, ran, covered, walked⟩ :=
      inferExpression_walked argument inference wellFormed
    refine ⟨.returning offset (some typed) (some type), type, after, [], ?_, covered, walked⟩
    simp only [inferStatement_returning, ran]

/-- The walk over several statements satisfies the frame condition. -/
theorem inferStatements_walked (statements : List Statement) (inference : Inference)
    (wellFormed : inference.WellFormed) :
    ∃ inferred after bound, (inferStatements statements).run inference = (inferred, after) ∧
      (∀ type ∈ inferred.map (·.2), type.Over after.store.cells.size) ∧
      Walked inference after inference.params (Ty.varsOf (inferred.map (·.2))) bound := by
  match statements with
  | [] =>
    have nothing : Walked inference inference [] [] [] :=
      walked_store (.of_agrees (.refl _) wellFormed.sound)
    exact ⟨[], inference, [], rfl, by simp, nothing.wider wellFormed.sound wellFormed.params_old
      (List.nil_subset _)⟩
  | first :: rest =>
    obtain ⟨typed, type, second, bound, ran, typeOver, walked⟩ :=
      inferStatement_walked first inference wellFormed
    obtain ⟨others, after, more, restRan, restOver, restWalked⟩ :=
      inferStatements_walked rest second (walked.wellFormed wellFormed)
    refine ⟨(typed, type) :: others, after, more ++ bound, ?_, ?_, ?_⟩
    · simp only [inferStatements_cons, ran, restRan]
    · rw [List.map_cons, List.forall_mem_cons]
      exact ⟨restWalked.covered typeOver, restOver⟩
    · rw [walked.params_eq] at restWalked
      exact walked.append restWalked (List.subset_append_left _ _)

end

end ArrowScript.Inferrer
