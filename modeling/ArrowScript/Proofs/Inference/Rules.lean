import ArrowScript.Proofs.Inference.Ascriptions

/-!
# The equations of the rules

Behind the walks over the parts of an expression, every rule solves some equations
between the types of the parts, and most rules give the whole a type that is fresh.
`Solves` says that equations are solved without a problem exactly when they can be.
`Yields` says the same of a rule that gives a type: the type it yields without a problem
fits, and every type that would fit is a case of it.

The rule of `+` only guarantees the first half, since it prefers `Number`.
-/

namespace ArrowScript

open Store

namespace Store

variable {before after : Store} {model extended : VariableId → Ty}

/-- A model is free to choose the values of new variables. -/
theorem Models.extend (models : before.Models model) (sound : before.Sound)
    (agrees : Agrees before after) (same : ∀ id < before.cells.size, extended id = model id) :
    after.Models extended := by
  rw [agrees.models_iff]
  have atVariable (id : VariableId) :
      (before.resolve (.var id)).substitute extended = extended id := by
    by_cases old : id < before.cells.size
    · have covered := sound.resolve_over (Ty.over_var.mpr old)
      calc (before.resolve (.var id)).substitute extended
          = (before.resolve (.var id)).substitute model :=
            Ty.substitute_congr fun place occurs => same place (covered.lt occurs)
        _ = model id := models (.var id)
        _ = extended id := (same id old).symm
    · rw [resolve_free (free_of_le (Nat.le_of_not_lt old)), Ty.substitute]
  intro term
  rw [resolve_eq_substitute, Ty.substitute_substitute]
  exact Ty.substitute_congr fun id _ => atVariable id

end Store

namespace Inferrer

variable {before between after inference : Inference} {known others : List VariableId}
  {pairs more : List (Ty × Ty)} {type : Ty} {fits further : (VariableId → Ty) → Ty → Prop}

/-- A walk that solves some equations. It reports nothing exactly when they have a
solution, and keeps all solutions. -/
structure Solves (before after : Inference) (known : List VariableId) (pairs : List (Ty × Ty)) :
    Prop where
  walked : Walked before after known [] []
  solved : after.diagnostics = before.diagnostics → Solver.Equates after.store.solution pairs
  general : ∀ model, before.store.Models model → Solver.Equates model pairs →
    after.diagnostics = before.diagnostics ∧ after.store.Models model

/-- A walk that yields a type. Without a problem the type fits, and every type that fits is
a case of it. -/
structure Yields (before after : Inference) (known : List VariableId) (type : Ty)
    (fits : (VariableId → Ty) → Ty → Prop) : Prop where
  covered : type.Over after.store.cells.size
  walked : Walked before after known type.vars []
  solved : after.diagnostics = before.diagnostics →
    fits after.store.solution (after.store.resolve type)
  general : ∀ model image, before.store.Models model → fits model image →
    after.diagnostics = before.diagnostics ∧
      ∃ extended : VariableId → Ty, (∀ id < before.store.cells.size, extended id = model id) ∧
        after.store.Models extended ∧ type.substitute extended = image

/-- Two walks that together report nothing report nothing each. -/
theorem quiet_both (first : before.diagnostics <+: between.diagnostics)
    (second : between.diagnostics <+: after.diagnostics)
    (quiet : after.diagnostics = before.diagnostics) :
    between.diagnostics = before.diagnostics ∧ after.diagnostics = between.diagnostics := by
  rw [quiet] at second
  have same : between.diagnostics = before.diagnostics :=
    second.eq_of_length_le first.length_le
  exact ⟨same, quiet.trans same.symm⟩

/-- Unification solves one equation. -/
theorem unify_solves (sound : inference.store.Sound) {left right : Ty}
    (leftOver : left.Over inference.store.cells.size)
    (rightOver : right.Over inference.store.cells.size) (offset : Int) :
    ∃ fitted after, (unify left right offset).run inference = (fitted, after) ∧
      Solves inference after (left.vars ++ right.vars) [(left, right)] ∧
      (fitted = true ↔ after.diagnostics = inference.diagnostics) := by
  obtain ⟨problems, after, ran, unified, diagnostics, walked⟩ :=
    unify_spec sound leftOver rightOver offset
  have quiet : after.diagnostics = inference.diagnostics ↔ problems = [] := by
    simp [diagnostics]
  refine ⟨_, after, ran, ⟨walked, ?_, ?_⟩, ?_⟩
  · exact fun same => unified.solved (quiet.mp same)
  · intro model models equates
    obtain ⟨none, modelsAfter⟩ := unified.general model models equates
    exact ⟨quiet.mpr none, modelsAfter⟩
  · rw [quiet, List.isEmpty_iff]

/-- No equations are solved by doing nothing. -/
theorem Solves.nil (sound : inference.store.Sound)
    (knownOld : ∀ id ∈ known, id < inference.store.cells.size) :
    Solves inference inference known [] where
  walked := ((walked_store (.of_agrees (.refl _) sound)).wider sound knownOld
    (List.nil_subset known)).fewer (by simp)
  solved _ := by simp [Solver.Equates]
  general model models _ := ⟨rfl, models⟩

/-- Two walks that solve equations solve both. -/
theorem Solves.append (first : Solves before between known pairs)
    (second : Solves between after others more) (knows : others ⊆ known) :
    Solves before after known (pairs ++ more) where
  walked := first.walked.append second.walked (by grind)
  solved quiet := by
    obtain ⟨quietFirst, quietSecond⟩ :=
      quiet_both first.walked.diagnostics second.walked.diagnostics quiet
    refine Solver.equates_append.mpr ⟨fun pair member => ?_, second.solved quietSecond⟩
    exact second.walked.framed.refines.resolve_eq (first.solved quietFirst pair member)
  general model models equates := by
    obtain ⟨here, there⟩ := Solver.equates_append.mp equates
    obtain ⟨quietFirst, modelsBetween⟩ := first.general model models here
    obtain ⟨quietSecond, modelsAfter⟩ := second.general model modelsBetween there
    exact ⟨quietSecond.trans quietFirst, modelsAfter⟩

/-- A walk that knows more solves the same equations. -/
theorem Solves.wider (solves : Solves before after known pairs) (sound : before.store.Sound)
    (othersOld : ∀ id ∈ others, id < before.store.cells.size) (knows : known ⊆ others) :
    Solves before after others pairs :=
  { solves with walked := (solves.walked.wider sound othersOld knows).fewer (by simp) }

/-- A walk that solves equations before another yields a type. -/
theorem Solves.yields (solves : Solves before between known pairs)
    (yields : Yields between after others type further) (knows : others ⊆ known)
    (fits_iff : ∀ model image, fits model image ↔
      Solver.Equates model pairs ∧ further model image) :
    Yields before after known type fits where
  covered := yields.covered
  walked := solves.walked.append yields.walked (by grind)
  solved quiet := by
    obtain ⟨quietFirst, quietSecond⟩ :=
      quiet_both solves.walked.diagnostics yields.walked.diagnostics quiet
    refine (fits_iff _ _).mpr ⟨fun pair member => ?_, yields.solved quietSecond⟩
    exact yields.walked.framed.refines.resolve_eq (solves.solved quietFirst pair member)
  general model image models isFit := by
    obtain ⟨equates, isFurther⟩ := (fits_iff model image).mp isFit
    obtain ⟨quietFirst, modelsBetween⟩ := solves.general model models equates
    obtain ⟨quietSecond, extended, old, modelsAfter, same⟩ :=
      yields.general model image modelsBetween isFurther
    refine ⟨quietSecond.trans quietFirst, extended, fun id inside => old id ?_, modelsAfter, same⟩
    exact Nat.lt_of_lt_of_le inside solves.walked.framed.refines.size_le

/-- A fresh variable for which equations are solved yields a type. -/
theorem fresh_yields {store : Store} (sound : before.store.Sound)
    (agrees : Agrees before.store store)
    (added : Walked before { before with store } [] [before.store.cells.size] [])
    (solves : Solves { before with store } after others pairs)
    (knownOld : ∀ id ∈ known, id < before.store.cells.size)
    (knows : others ⊆ known ++ [before.store.cells.size])
    (solved : ∀ model, Solver.Equates model pairs → fits model (model before.store.cells.size))
    (general : ∀ model image, fits model image → ∀ extended : VariableId → Ty,
      (∀ id < before.store.cells.size, extended id = model id) →
      extended before.store.cells.size = image → Solver.Equates extended pairs) :
    Yields before after known (.var before.store.cells.size) fits where
  covered := Nat.lt_of_lt_of_le (added.framed.old _ (by simp)) solves.walked.framed.refines.size_le
  walked := by
    have start := added.wider sound knownOld (List.nil_subset known)
    exact (start.append solves.walked (by grind)).fewer (by simp)
  solved quiet := solved _ (solves.solved quiet)
  general model image models isFit := by
    let extended : VariableId → Ty :=
      fun id => if id = before.store.cells.size then image else model id
    have old (id : VariableId) (inside : id < before.store.cells.size) :
        extended id = model id := if_neg (Nat.ne_of_lt inside)
    have here : extended before.store.cells.size = image := if_pos rfl
    obtain ⟨quiet, modelsAfter⟩ := solves.general extended (models.extend sound agrees old)
      (general model image isFit extended old here)
    exact ⟨quiet, extended, old, modelsAfter, here⟩

/-! ## The rules -/

/-- What the rule of an index does behind the walks over its parts. -/
def memberType (object index : Ty) (objectOffset indexOffset : Int) : Inferrer Ty := do
  let _ ← unify index (.primitive .number) indexOffset
  let element ← freshVariable
  let _ ← unify object (.array element) objectOffset
  return element

/-- An index is a number on an array whose elements have the type. -/
theorem memberType_yields (wellFormed : inference.WellFormed) {object index : Ty}
    (objectOver : object.Over inference.store.cells.size)
    (indexOver : index.Over inference.store.cells.size) (objectOffset indexOffset : Int) :
    ∃ type after, (memberType object index objectOffset indexOffset).run inference =
        (type, after) ∧
      Yields inference after (object.vars ++ index.vars) type fun model image =>
        index.substitute model = .primitive .number ∧ object.substitute model = .array image := by
  obtain ⟨_, between, numberRan, number, -⟩ :=
    unify_solves wellFormed.sound indexOver (by simp : (Ty.primitive .number).Over _) indexOffset
  have betweenFormed := number.walked.wellFormed wellFormed
  have objectBetween := number.walked.covered objectOver
  obtain ⟨store, freshRan, agrees, size, added⟩ := freshVariable_spec betweenFormed.sound
  have formed := added.wellFormed betweenFormed
  obtain ⟨_, after, arrayRan, array, -⟩ := unify_solves formed.sound
    (added.covered objectBetween)
    (by simp [size] : (Ty.array (.var between.store.cells.size)).Over _) objectOffset
  refine ⟨.var between.store.cells.size, after, ?_, ?_⟩
  · rw [memberType, run_bind, numberRan, run_bind, freshRan, run_bind, arrayRan, run_pure]
  have objectOld (id : VariableId) (member : id ∈ object.vars) :
      id < between.store.cells.size := objectBetween.lt member
  have element : Yields between after object.vars (.var between.store.cells.size)
      fun model image => object.substitute model = .array image := by
    refine fresh_yields betweenFormed.sound agrees added array objectOld (by simp) ?_ ?_
    · intro model equates
      simpa [Solver.Equates] using equates
    · intro model image isFit extended old here
      have same : object.substitute extended = object.substitute model :=
        Ty.substitute_congr fun id occurs => old id (objectOld id occurs)
      simp [Solver.Equates, same, isFit, here]
  have whole : Solves inference between (object.vars ++ index.vars)
      [(index, .primitive .number)] := by
    refine number.wider wellFormed.sound (fun id member => ?_) (by simp)
    exact (List.mem_append.mp member).elim objectOver.lt indexOver.lt
  refine whole.yields element (by simp) fun model image => ?_
  simp [Solver.Equates]

/-- What the rule of a conditional does behind the walks over its branches. -/
def branchType (consequent alternate : Ty) (consequentOffset alternateOffset : Int) :
    Inferrer Ty := do
  let result ← freshVariable
  let _ ← unify consequent result consequentOffset
  let _ ← unify alternate result alternateOffset
  return result

/-- Both branches have the type of the conditional. -/
theorem branchType_yields (wellFormed : inference.WellFormed) {consequent alternate : Ty}
    (consequentOver : consequent.Over inference.store.cells.size)
    (alternateOver : alternate.Over inference.store.cells.size)
    (consequentOffset alternateOffset : Int) :
    ∃ type after, (branchType consequent alternate consequentOffset alternateOffset).run
        inference = (type, after) ∧
      Yields inference after (consequent.vars ++ alternate.vars) type fun model image =>
        consequent.substitute model = image ∧ alternate.substitute model = image := by
  obtain ⟨store, freshRan, agrees, size, added⟩ := freshVariable_spec wellFormed.sound
  have formed := added.wellFormed wellFormed
  have freshOver : (Ty.var inference.store.cells.size).Over store.cells.size := by simp [size]
  obtain ⟨_, between, consequentRan, first, -⟩ :=
    unify_solves formed.sound (added.covered consequentOver) freshOver consequentOffset
  have betweenFormed := first.walked.wellFormed formed
  obtain ⟨_, after, alternateRan, second, -⟩ := unify_solves betweenFormed.sound
    (first.walked.covered (added.covered alternateOver)) (first.walked.covered freshOver)
    alternateOffset
  refine ⟨.var inference.store.cells.size, after, ?_, ?_⟩
  · rw [branchType, run_bind, freshRan, run_bind, consequentRan, run_bind, alternateRan, run_pure]
  have old (id : VariableId) (member : id ∈ consequent.vars ++ alternate.vars) :
      id < inference.store.cells.size :=
    (List.mem_append.mp member).elim consequentOver.lt alternateOver.lt
  have allOld (id : VariableId) (member : id ∈ consequent.vars ++ alternate.vars ++
      [inference.store.cells.size]) : id < store.cells.size := by
    rcases List.mem_append.mp member with isOld | isFresh
    · exact Nat.lt_of_lt_of_le (old id isOld) agrees.size_le
    · rw [List.mem_singleton.mp isFresh, size]
      exact Nat.lt_succ_self _
  have firstKnows : consequent.vars ++ (Ty.var inference.store.cells.size).vars ⊆
      consequent.vars ++ alternate.vars ++ [inference.store.cells.size] := by
    intro id
    simp only [Ty.vars, List.mem_append]
    tauto
  have secondKnows : alternate.vars ++ (Ty.var inference.store.cells.size).vars ⊆
      consequent.vars ++ alternate.vars ++ [inference.store.cells.size] := by
    intro id
    simp only [Ty.vars, List.mem_append]
    tauto
  have both := (first.wider formed.sound allOld firstKnows).append second secondKnows
  refine fresh_yields wellFormed.sound agrees added both old (List.Subset.refl _) ?_ ?_
  · intro model equates
    simpa [Solver.Equates] using equates
  · rintro model image ⟨consequentFits, alternateFits⟩ extended agree here
    have consequentSame : consequent.substitute extended = consequent.substitute model :=
      Ty.substitute_congr fun id occurs => agree id (consequentOver.lt occurs)
    have alternateSame : alternate.substitute extended = alternate.substitute model :=
      Ty.substitute_congr fun id occurs => agree id (alternateOver.lt occurs)
    simp [Solver.Equates, consequentSame, alternateSame, consequentFits, alternateFits, here]

/-- Several types are over the variables that their own variables are among. -/
theorem varsOf_old {types : List Ty} {count : Nat}
    (covered : ∀ type ∈ types, type.Over count) (id : VariableId)
    (member : id ∈ Ty.varsOf types) : id < count := by
  obtain ⟨type, isType, occurs⟩ := Ty.mem_varsOf.mp member
  exact (covered type isType).lt occurs

/-- Two lists of types are over the variables that their own variables are among. -/
theorem varsOf_append_old {types images : List Ty} {count : Nat}
    (covered : ∀ type ∈ types, type.Over count) (imagesOver : ∀ type ∈ images, type.Over count)
    (id : VariableId) (member : id ∈ Ty.varsOf types ++ Ty.varsOf images) :
    id < count :=
  (List.mem_append.mp member).elim (varsOf_old covered id) (varsOf_old imagesOver id)

/-- The types of parameters are equated with those of arguments, one after the other. -/
theorem passArguments_solves {params : List Ty} {arguments : List (Expression × Ty)}
    (wellFormed : inference.WellFormed)
    (paramsOver : ∀ param ∈ params, param.Over inference.store.cells.size)
    (argumentsOver : ∀ type ∈ arguments.map (·.2), type.Over inference.store.cells.size) :
    Solves inference ((passArguments params arguments).run inference).2
      (Ty.varsOf params ++ Ty.varsOf (arguments.map (·.2)))
      (params.zip (arguments.map (·.2))) := by
  induction params generalizing arguments inference with
  | nil =>
    rw [List.zip_nil_left]
    exact .nil wellFormed.sound (varsOf_append_old paramsOver argumentsOver)
  | cons param rest inductionHypothesis =>
    cases arguments with
    | nil => exact .nil wellFormed.sound (varsOf_append_old paramsOver argumentsOver)
    | cons argument others =>
      have old := varsOf_append_old paramsOver argumentsOver
      simp only [List.map_cons, List.mem_cons, forall_eq_or_imp] at paramsOver argumentsOver
      obtain ⟨fitted, between, ran, first, -⟩ :=
        unify_solves wellFormed.sound paramsOver.1 argumentsOver.1 argument.1.offset
      have further := inductionHypothesis (first.walked.wellFormed wellFormed)
        (fun type member => first.walked.covered (paramsOver.2 type member))
        fun type member => first.walked.covered (argumentsOver.2 type member)
      rw [passArguments, run_bind, ran, List.map_cons, List.zip_cons_cons]
      refine (first.wider wellFormed.sound old ?_).append further ?_
      · intro id
        simp only [List.map_cons, Ty.varsOf, List.mem_append]
        tauto
      · intro id
        simp only [List.map_cons, Ty.varsOf, List.mem_append]
        tauto

/-- A rule that refuses its parts reports a problem and yields any type. -/
theorem refuse_spec (wellFormed : inference.WellFormed) (problem : Problem) (offset : Int) :
    ∃ type after,
      (do report [problem] offset; freshVariable : Inferrer Ty).run inference = (type, after) ∧
        type.Over after.store.cells.size ∧ Walked inference after [] type.vars [] ∧
        after.diagnostics ≠ inference.diagnostics := by
  have reported := report_walked wellFormed.sound [problem] offset
  obtain ⟨store, ran, agrees, size, added⟩ :=
    freshVariable_spec (reported.wellFormed wellFormed).sound
  refine ⟨.var inference.store.cells.size, _, ?_, ?_,
    (reported.append added (by simp)).fewer ?_, ?_⟩
  · rw [run_bind, ran]
    rfl
  · rw [Ty.over_var, size]
    exact Nat.lt_succ_self _
  · exact List.Subset.refl _
  · change inference.diagnostics ++ _ ≠ _
    simp

/-- A rule that always refuses its parts yields a type although none fits. -/
theorem Yields.refused (covered : type.Over after.store.cells.size)
    (walked : Walked before after known type.vars [])
    (reported : after.diagnostics ≠ before.diagnostics)
    (never : ∀ model image, ¬ fits model image) : Yields before after known type fits where
  covered := covered
  walked := walked
  solved quiet := absurd quiet reported
  general model image _ isFit := absurd isFit (never model image)

/-- What is no function cannot be called. -/
theorem notCallable_yields (wellFormed : inference.WellFormed) {callee : Ty}
    (calleeOver : callee.Over inference.store.cells.size)
    (knownOld : ∀ id ∈ known, id < inference.store.cells.size) (offset : Int)
    (never : ∀ model image, ¬ fits model image) :
    ∃ type after,
      (do
        let provided ← solve (Solver.print callee)
        report [.notCallable provided] offset
        freshVariable : Inferrer Ty).run inference = (type, after) ∧
      Yields inference after known type fits := by
  obtain ⟨text, store, printRan, -, printed⟩ := print_spec wellFormed.sound calleeOver
  obtain ⟨type, after, ran, covered, refused, reported⟩ :=
    refuse_spec (printed.wellFormed wellFormed) (.notCallable text) offset
  refine ⟨type, after, by rw [run_bind, printRan, ran], .refused covered ?_ reported never⟩
  exact ((printed.append refused (by simp)).wider wellFormed.sound knownOld
    (List.nil_subset known)).fewer (by simp)

/-- The callee is a function from the types of the arguments to the type of the call. -/
theorem callType_yields (wellFormed : inference.WellFormed) {callee : Ty}
    (calleeOver : callee.Over inference.store.cells.size) {arguments : List (Expression × Ty)}
    (argumentsOver : ∀ type ∈ arguments.map (·.2), type.Over inference.store.cells.size)
    (offset : Int) :
    ∃ type after, (callType callee arguments offset).run inference = (type, after) ∧
      Yields inference after (callee.vars ++ Ty.varsOf (arguments.map (·.2))) type
        fun model image => callee.substitute model =
          .function ((arguments.map (·.2)).map (·.substitute model)) image := by
  have old (id : VariableId) (member : id ∈ callee.vars ++
      Ty.varsOf (arguments.map (·.2))) : id < inference.store.cells.size :=
    (List.mem_append.mp member).elim calleeOver.lt (varsOf_old argumentsOver id)
  cases callee with
  | var id =>
    obtain ⟨store, freshRan, agrees, size, added⟩ := freshVariable_spec wellFormed.sound
    have functionOver : (Ty.function (arguments.map (·.2))
        (.var inference.store.cells.size)).Over store.cells.size := by
      simp only [Ty.Over, Ty.allOver_iff]
      exact ⟨fun type member => added.covered (argumentsOver type member), by simp [size]⟩
    obtain ⟨_, after, ran, solves, -⟩ := unify_solves (added.wellFormed wellFormed).sound
      (added.covered calleeOver) functionOver offset
    refine ⟨.var inference.store.cells.size, after, ?_, ?_⟩
    · rw [callType, run_bind, freshRan, run_bind, ran, run_pure]
    refine fresh_yields wellFormed.sound agrees added solves old ?_ ?_ ?_
    · intro place
      simp only [Ty.vars, List.mem_append]
      tauto
    · intro model equates
      simpa [Solver.Equates] using equates
    · intro model image isFit extended agree here
      have calleeSame : extended id = model id := agree id calleeOver
      have same : (arguments.map (·.2)).map (·.substitute extended) =
          (arguments.map (·.2)).map (·.substitute model) :=
        List.map_congr_left fun type member => Ty.substitute_congr fun place occurs =>
          agree place ((argumentsOver type member).lt occurs)
      simp only [Ty.substitute] at isFit
      simp only [Solver.equates_cons, Ty.substitute, Ty.substituteAll_eq_map, calleeSame, isFit,
        same, here]
      simp [Solver.Equates]
  | function params result =>
    simp only [Ty.Over, Ty.allOver_iff] at calleeOver
    by_cases arity : params.length = arguments.length
    · have passed := passArguments_solves wellFormed calleeOver.1 argumentsOver
      have lengths : params.length = (arguments.map (·.2)).length := by simpa using arity
      have fits_iff (model : VariableId → Ty) (image : Ty) :
          (Ty.function params result).substitute model =
              .function ((arguments.map (·.2)).map (·.substitute model)) image ↔
            Solver.Equates model (params.zip (arguments.map (·.2))) ∧
              result.substitute model = image := by
        rw [Solver.equates_zip lengths]
        simp only [Ty.substitute, Ty.substituteAll_eq_map, Ty.function.injEq]
      refine ⟨result, ((passArguments params arguments).run inference).2, ?_, ?_⟩
      · rw [callType, if_neg (not_not.mpr arity), run_bind, run_pure]
      have wider := passed.wider wellFormed.sound old (by
        intro place
        simp only [Ty.vars, List.mem_append]
        tauto)
      refine ⟨wider.walked.covered calleeOver.2, wider.walked.fewer ?_, ?_, ?_⟩
      · intro place
        simp only [Ty.vars, List.mem_append]
        tauto
      · exact fun quiet => (fits_iff _ _).mpr ⟨wider.solved quiet, rfl⟩
      · intro model image models isFit
        obtain ⟨equates, same⟩ := (fits_iff model image).mp isFit
        obtain ⟨quiet, modelsAfter⟩ := wider.general model models equates
        exact ⟨quiet, model, fun _ _ => rfl, modelsAfter, same⟩
    · obtain ⟨type, after, ran, covered, refused, reported⟩ := refuse_spec wellFormed
        (.arityMismatch params.length arguments.length) offset
      refine ⟨type, after, ?_, .refused covered ?_ reported ?_⟩
      · rw [callType, if_pos arity, ran]
      · exact (refused.wider wellFormed.sound old (List.nil_subset _)).fewer fun id member => by
          simp [member]
      · intro model image isFit
        simp only [Ty.substitute, Ty.substituteAll_eq_map, Ty.function.injEq] at isFit
        exact arity (by simpa using congrArg List.length isFit.1)
  | primitive kind => exact notCallable_yields wellFormed calleeOver old offset (by simp)
  | array element => exact notCallable_yields wellFormed calleeOver old offset (by simp)
  | shapeless => exact absurd calleeOver (by simp)

/-- Gives a type the ascription that is written for it, if there is one. -/
def ascribe (type : Ty) (ascription : Option Ascription) (offset : Int) : Inferrer Ty :=
  match ascription with
  | none => return type
  | some written => do
    let declared ← ascriptionType written
    let _ ← unify type declared offset
    return declared

/-- An ascribed type is the type itself, and the ascription denotes it. -/
theorem ascribe_yields (wellFormed : inference.WellFormed) {type : Ty}
    (covered : type.Over inference.store.cells.size) (ascription : Option Ascription)
    (offset : Int) :
    ∃ ascribed after, (ascribe type ascription offset).run inference = (ascribed, after) ∧
      Yields inference after type.vars ascribed fun model image =>
        type.substitute model = image ∧
          ∀ written, ascription = some written → written.Denotes image := by
  cases ascription with
  | none =>
    refine ⟨type, inference, rfl, covered, ?_, ?_, ?_⟩
    · have nothing : Solves inference inference type.vars [] :=
        .nil wellFormed.sound fun id => covered.lt
      exact nothing.walked.fewer (by simp)
    · intro _
      exact ⟨rfl, by simp⟩
    · rintro model image models ⟨same, -⟩
      exact ⟨rfl, model, fun _ _ => rfl, models, same⟩
  | some written =>
    obtain ⟨declared, store, declaredRan, invents⟩ :=
      ascriptionType_invents written inference wellFormed.sound
    obtain ⟨_, single, denotes⟩ := invents.allowed
    cases single
    have invented : Walked inference { inference with store } [] declared.vars [] :=
      (walked_store (invents.framed wellFormed.sound)).fewer (by simp)
    have formed := invented.wellFormed wellFormed
    have declaredOver := invents.covered declared (by simp)
    obtain ⟨_, after, ran, solves, -⟩ := unify_solves formed.sound (invented.covered covered)
      declaredOver offset
    refine ⟨declared, after, ?_, ?_⟩
    · rw [ascribe, run_bind, declaredRan, run_bind, ran, run_pure]
    have old (id : VariableId) (member : id ∈ type.vars) :
        id < inference.store.cells.size := covered.lt member
    refine ⟨solves.walked.covered declaredOver, ?_, ?_, ?_⟩
    · have start := invented.wider wellFormed.sound old (List.nil_subset _)
      exact (start.append solves.walked (by simp)).fewer fun id member => by simp [member]
    · intro quiet
      have same := (Solver.equates_cons.mp (solves.solved quiet)).1
      refine ⟨same, ?_⟩
      rintro _ ⟨⟩
      exact denotes.substitute _
    · rintro model image models ⟨same, imageDenotes⟩
      obtain ⟨extended, agree, images⟩ :=
        invents.general model [image] ⟨image, rfl, imageDenotes written rfl⟩
      have declaredSame : declared.substitute extended = image := by simpa using images
      have typeSame : type.substitute extended = image :=
        (Ty.substitute_congr fun id occurs => agree id (old id occurs)).trans same
      obtain ⟨quiet, modelsAfter⟩ := solves.general extended
        (models.extend wellFormed.sound invents.agrees agree)
        (by simp [Solver.Equates, declaredSame, typeSame])
      exact ⟨quiet, extended, agree, modelsAfter, declaredSame⟩

end Inferrer

end ArrowScript
