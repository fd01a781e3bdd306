import ArrowScript.Proofs.Inference.Generality
import ArrowScript.Proofs.Problems.Typing

/-!
# What a sum reports

The rule of sums asks three things of its operands: whether one of them is a string, whether
they can be made equal, and what they are then. A sum of strings reports the conflicts of its
operands with `String`, and any other sum those with each other. Only if there are none is
the type that both have come to looked at, and only if it is neither unknown nor a number it
is reported, alone.

What both operands have come to is an instance of what any most general unifier makes of
them, and the other way round. So the two are of the same form, and it does not matter that
the rule unifies both operands with a fresh variable instead of with each other.
-/

namespace ArrowScript

open Store

namespace Ty

/-! ## Types that can be added -/

/-- A type that is accepted as that of numbers: a numeric one, or one that may still become
numeric. -/
def Addable : Ty → Prop
  | var _ | primitive .number | primitive .float => True
  | _ => False

/-- Of two types that are instances of each other both can be added or none. -/
theorem addable_iff_of_instances {first second : Ty} {there back : VariableId → Ty}
    (forward : second = first.substitute there) (backward : first = second.substitute back) :
    first.Addable ↔ second.Addable := by
  cases first with
  | var id =>
    cases second with
    | var other => exact Iff.rfl
    | _ => simp at backward
  | primitive kind => rw [forward, substitute]
  | array element => simp [forward, Addable]
  | function params result => simp [forward, Addable]
  | shapeless => rw [forward, substitute]

end Ty

namespace Solver

/-- Types that can be made equal can be made so most generally. -/
theorem exists_mostGeneral {store : Store} (sound : store.Sound) {left right : Ty}
    (leftOver : left.Over store.cells.size) (rightOver : right.Over store.cells.size)
    (unifiable : ∃ unifier, Ty.Unifier (store.resolve left) (store.resolve right) unifier) :
    ∃ unifier, Ty.MostGeneral (store.resolve left) (store.resolve right) unifier := by
  have unified := unify_unified sound leftOver rightOver
  have framed := framed_unified sound leftOver rightOver unified
  have specializes := unified.refines.specializes sound fun _ => framed.free_before sound
  exact ⟨_, unified.mostGeneral sound leftOver rightOver ((unified.nil_iff sound).mpr unifiable)
    specializes⟩

end Solver

namespace Inferrer

variable {between after inference unified : Inference} {left right common reached : Ty}

/-! ## The question for strings -/

/-- A type is a string if it stands for the primitive of strings. -/
theorem isString_iff (sound : inference.store.Sound)
    (covered : left.Over inference.store.cells.size) :
    ∃ textual store, (isString left).run inference = (textual, { inference with store }) ∧
      Agrees inference.store store ∧
      (textual = true ↔ inference.store.resolve left = .primitive .string) := by
  obtain ⟨reached, store, ran, agrees, -, same, -, free, -⟩ := compress_spec sound covered
  rw [isString, run_bind, ran, ← same]
  cases reached with
  | var id => exact ⟨false, store, rfl, agrees, by simp [resolve_free (free id rfl)]⟩
  | primitive kind => cases kind <;> exact ⟨_, store, rfl, agrees, by simp [resolve]⟩
  | array element => exact ⟨false, store, rfl, agrees, by simp [resolve]⟩
  | function params result => exact ⟨false, store, rfl, agrees, by simp [resolve]⟩
  | shapeless => exact ⟨false, store, rfl, agrees, by simp [resolve]⟩

/-- A sum is one of strings if one of its operands is a string. -/
theorem isTextual_iff (sound : inference.store.Sound)
    (leftOver : left.Over inference.store.cells.size)
    (rightOver : right.Over inference.store.cells.size) :
    ∃ textual between,
      (do if ← isString left then pure true else isString right : Inferrer Bool).run inference =
        (textual, between) ∧
      Walked inference between [] [] [] ∧ between.diagnostics = inference.diagnostics ∧
      Agrees inference.store between.store ∧
      (textual = true ↔ inference.store.resolve left = .primitive .string ∨
        inference.store.resolve right = .primitive .string) := by
  obtain ⟨leftTextual, store, leftRan, agrees, leftIff⟩ := isString_iff sound leftOver
  have asked : Walked inference { inference with store } [] [] [] :=
    walked_store (.of_agrees agrees sound)
  obtain ⟨rightTextual, more, rightRan, agreesMore, rightIff⟩ :=
    isString_iff asked.framed.sound (asked.covered rightOver)
  rw [run_bind, leftRan]
  cases leftTextual with
  | true => exact ⟨true, _, rfl, asked, rfl, agrees, by simp [leftIff.mp rfl]⟩
  | false =>
    rw [agrees.resolve_eq] at rightIff
    have both := agrees.trans agreesMore
    have other : inference.store.resolve left ≠ .primitive .string := fun string =>
      Bool.false_ne_true (leftIff.mpr string)
    exact ⟨rightTextual, _, rightRan, walked_store (.of_agrees both sound), rfl, both,
      by simp [rightIff, other]⟩

/-! ## Conflicts -/

/-- Unification in a state is unification in its store. -/
theorem unify_run (left right : Ty) (offset : Int) (inference : Inference) :
    (unify left right offset).run inference =
      (((Solver.unify left right).run inference.store).1.isEmpty,
        { inference with
          store := ((Solver.unify left right).run inference.store).2
          diagnostics := inference.diagnostics ++
            ((Solver.unify left right).run inference.store).1.map (⟨·, offset⟩) }) := rfl

/-- Unification adds conflicts, and fits if there are none. -/
theorem unify_conflicts {fits : Bool} {offset : Int}
    (ran : (unify left right offset).run inference = (fits, after)) :
    ∃ reported, after.diagnostics = inference.diagnostics ++ reported ∧
      Coded ErrorCode.conflicts reported ∧ (fits = true ↔ reported = []) := by
  have finds := Solver.unify_finds left right inference.store
  rw [unify_run] at ran
  generalize (Solver.unify left right).run inference.store = solved at finds ran
  obtain ⟨rfl, rfl⟩ := Prod.mk.inj ran
  refine ⟨solved.1.map (⟨·, offset⟩), rfl, fun diagnostic member => ?_, by simp⟩
  obtain ⟨problem, found, rfl⟩ := List.mem_map.mp member
  exact finds problem found

/-- So does the unification of both operands with one type. -/
theorem unifyBoth_conflicts {leftFits rightFits : Bool} {leftOffset rightOffset : Int}
    (leftRan : (unify left common leftOffset).run inference = (leftFits, between))
    (rightRan : (unify right common rightOffset).run between = (rightFits, after)) :
    ∃ reported, after.diagnostics = inference.diagnostics ++ reported ∧
      Coded ErrorCode.conflicts reported ∧ ((leftFits && rightFits) = true ↔ reported = []) := by
  obtain ⟨here, hereReported, hereCoded, hereFits⟩ := unify_conflicts leftRan
  obtain ⟨there, thereReported, thereCoded, thereFits⟩ := unify_conflicts rightRan
  refine ⟨here ++ there, ?_, hereCoded.append thereCoded, ?_⟩
  · rw [thereReported, hereReported, List.append_assoc]
  · rw [Bool.and_eq_true, hereFits, thereFits, List.append_eq_nil_iff]

/-- A sum of strings reports conflicts only. -/
theorem textSum_conflicts (left right : Ty) (leftOffset rightOffset : Int)
    (inference : Inference) :
    ∃ reported, ((textSum left right leftOffset rightOffset).run inference).2.diagnostics =
        inference.diagnostics ++ reported ∧ Coded ErrorCode.conflicts reported := by
  rcases leftRan : (unify left (.primitive .string) leftOffset).run inference with
    ⟨leftFits, between⟩
  rcases rightRan : (unify right (.primitive .string) rightOffset).run between with
    ⟨rightFits, after⟩
  obtain ⟨reported, same, coded, -⟩ := unifyBoth_conflicts leftRan rightRan
  refine ⟨reported, ?_, coded⟩
  rw [textSum, run_bind, leftRan, run_bind, rightRan, run_pure, same]

/-! ## Sums of numbers -/

/-- The end of a chain of links can be added exactly when what it stands for can. -/
theorem addable_resolve {store : Store} (free : ∀ id, reached = .var id → store.Free id) :
    (store.resolve reached).Addable ↔ reached.Addable := by
  cases reached with
  | var id => rw [resolve_free (free id rfl)]
  | primitive kind => exact Iff.rfl
  | array element => exact Iff.rfl
  | function params result => exact Iff.rfl
  | shapeless => exact Iff.rfl

/-- What is settled without a look at a type that cannot be added is settled silently. -/
theorem settleSum_silent (operator : String) (offset : Int) {fits : Bool}
    (settled : reached.Addable ∨ fits = false) (inference : Inference) :
    ((settleSum operator offset fits reached).run inference).2.diagnostics =
      inference.diagnostics := by
  rcases settled with addable | rfl
  · cases reached with
    | var free => rfl
    | primitive kind => cases kind <;> first | rfl | exact addable.elim
    | array element => exact addable.elim
    | function params result => exact addable.elim
    | shapeless => exact addable.elim
  · cases reached with
    | primitive kind => cases kind <;> rfl
    | _ => rfl

/-- A type that cannot be added is reported, once. -/
theorem settleSum_rejects (operator : String) (offset : Int) (other : ¬ reached.Addable)
    (inference : Inference) :
    ∃ provided, ((settleSum operator offset true reached).run inference).2.diagnostics =
      inference.diagnostics ++ [⟨.operatorTypeMismatch operator provided, offset⟩] := by
  refine ⟨((Solver.print reached).run inference.store).1, ?_⟩
  cases reached with
  | var free => exact absurd trivial other
  | primitive kind => cases kind <;> first | rfl | exact absurd trivial other
  | _ => rfl

section Operand

variable {store : Store} {known : List VariableId}

/-- A unifier of two operands gives the fresh variable for both what they are made. -/
theorem exists_model (sound : inference.store.Sound) (agrees : Agrees inference.store store)
    (leftOver : left.Over inference.store.cells.size)
    (rightOver : right.Over inference.store.cells.size) {unifier : VariableId → Ty}
    (unifies : Ty.Unifier (inference.store.resolve left) (inference.store.resolve right) unifier) :
    ∃ model, store.Models model ∧
      Solver.Equates model [(left, .var inference.store.cells.size),
        (right, .var inference.store.cells.size)] ∧
      left.substitute model = (inference.store.resolve left).substitute unifier := by
  let common := (inference.store.resolve left).substitute unifier
  let model (id : VariableId) : Ty :=
    if id = inference.store.cells.size then common else inference.store.extended unifier id
  have old (id : VariableId) (inside : id < inference.store.cells.size) :
      model id = inference.store.extended unifier id := if_neg (Nat.ne_of_lt inside)
  have fresh : model inference.store.cells.size = common := if_pos rfl
  have side {term : Ty} (covered : term.Over inference.store.cells.size) :
      term.substitute model = (inference.store.resolve term).substitute unifier :=
    (covered.substitute_eq old).trans (substitute_extended _ _ _)
  have models := (sound.acyclic.models_extended unifier).extend sound agrees old
  refine ⟨model, models, ?_, side leftOver⟩
  simp only [Solver.equates_cons, Ty.substitute, side leftOver, side rightOver, fresh]
  exact ⟨rfl, unifies.symm, List.forall_mem_nil _⟩

/-- The operands are unified with a fresh variable without a conflict exactly when they can
be made equal. -/
theorem silent_iff (sound : inference.store.Sound) (agrees : Agrees inference.store store)
    (leftOver : left.Over inference.store.cells.size)
    (rightOver : right.Over inference.store.cells.size)
    (solves : Solves { inference with store } unified known
      [(left, .var inference.store.cells.size), (right, .var inference.store.cells.size)]) :
    unified.diagnostics = inference.diagnostics ↔
      ∃ unifier, Ty.Unifier (inference.store.resolve left) (inference.store.resolve right)
        unifier := by
  constructor
  · intro silent
    have refines := (Refines.of_agrees agrees sound).trans solves.walked.framed.refines
    have equates := solves.solved silent
    simp only [Solver.equates_cons, substitute_solution] at equates
    refine ⟨unified.store.solution, ?_⟩
    rw [Ty.Unifier, substitute_solution, substitute_solution, refines.resolve_resolve,
      refines.resolve_resolve, equates.1, equates.2.1]
  · rintro ⟨unifier, unifies⟩
    obtain ⟨model, models, equates, -⟩ := exists_model sound agrees leftOver rightOver unifies
    exact (solves.general model models equates).1

/-- What the operands have come to can be added exactly when what a most general unifier
makes of them can. -/
theorem addable_iff (sound : inference.store.Sound) (agrees : Agrees inference.store store)
    (leftOver : left.Over inference.store.cells.size)
    (rightOver : right.Over inference.store.cells.size)
    (solves : Solves { inference with store } unified known
      [(left, .var inference.store.cells.size), (right, .var inference.store.cells.size)])
    (silent : unified.diagnostics = inference.diagnostics) {unifier : VariableId → Ty}
    (general : Ty.MostGeneral (inference.store.resolve left) (inference.store.resolve right)
      unifier) :
    ((inference.store.resolve left).substitute unifier).Addable ↔
      (unified.store.resolve left).Addable := by
  have refines := (Refines.of_agrees agrees sound).trans solves.walked.framed.refines
  have equates := solves.solved silent
  simp only [Solver.equates_cons, substitute_solution] at equates
  have unifies : Ty.Unifier (inference.store.resolve left) (inference.store.resolve right)
      unified.store.solution := by
    rw [Ty.Unifier, substitute_solution, substitute_solution, refines.resolve_resolve,
      refines.resolve_resolve, equates.1, equates.2.1]
  obtain ⟨further, factors⟩ := general.factors _ unifies
  obtain ⟨model, models, modelEquates, image⟩ :=
    exists_model sound agrees leftOver rightOver general.unifies
  have modelsAfter := (solves.general model models modelEquates).2
  have forward : unified.store.resolve left =
      ((inference.store.resolve left).substitute unifier).substitute further := by
    rw [← refines.resolve_resolve, ← substitute_solution, Ty.substitute_substitute]
    exact Ty.substitute_congr fun id _ => factors id
  have backward : (inference.store.resolve left).substitute unifier =
      (unified.store.resolve left).substitute model := by
    rw [modelsAfter left, image]
  exact Ty.addable_iff_of_instances forward backward

end Operand

/-- Operands that a sum of numbers rejects: they can be made equal, and what they are then
cannot be added. -/
def Rejected (store : Store) (left right : Ty) : Prop :=
  ∃ unifier, Ty.MostGeneral (store.resolve left) (store.resolve right) unifier ∧
    ¬ ((store.resolve left).substitute unifier).Addable

/-- A sum of numbers reports conflicts only, unless it rejects its operands. Then it reports
this alone. -/
theorem numberSum_reports (wellFormed : inference.WellFormed)
    (leftOver : left.Over inference.store.cells.size)
    (rightOver : right.Over inference.store.cells.size)
    (leftOffset rightOffset offset : Int) (operator : String) :
    ∃ reported,
      ((numberSum left right leftOffset rightOffset offset operator).run inference).2.diagnostics =
        inference.diagnostics ++ reported ∧
      (Rejected inference.store left right →
        ∃ provided, reported = [⟨.operatorTypeMismatch operator provided, offset⟩]) ∧
      (¬ Rejected inference.store left right → Coded ErrorCode.conflicts reported) := by
  have sound := wellFormed.sound
  obtain ⟨store, freshRan, agrees, size, added⟩ := fresh_spec sound
  have formed := added.wellFormed wellFormed
  have operandOver : (Ty.var inference.store.cells.size).Over store.cells.size := by simp [size]
  obtain ⟨leftFits, rightFits, between, unified, leftRan, rightRan, solves, -⟩ :=
    unifyBoth_solves formed (added.covered leftOver) (added.covered rightOver) operandOver
      leftOffset rightOffset
  obtain ⟨conflicts, unifiedReported, coded, fits_iff⟩ := unifyBoth_conflicts leftRan rightRan
  have silent_iff_nil : unified.diagnostics = inference.diagnostics ↔ conflicts = [] := by
    simp [unifiedReported]
  obtain ⟨reached, compressed, compressRan, -, -, same, -, free, -⟩ :=
    compress_spec (solves.walked.wellFormed formed).sound (solves.walked.covered operandOver)
  have ran : (numberSum left right leftOffset rightOffset offset operator).run inference =
      (settleSum operator offset (leftFits && rightFits) reached).run
        { unified with store := compressed } := by
    rw [numberSum, run_bind, freshRan, run_bind, leftRan, run_bind, rightRan, run_bind,
      compressRan]
  have reached_addable (silent : unified.diagnostics = inference.diagnostics) :
      reached.Addable ↔ (unified.store.resolve left).Addable := by
    have equates := solves.solved silent
    simp only [Solver.equates_cons, substitute_solution] at equates
    rw [equates.1, ← same]
    exact (addable_resolve free).symm
  have rejected_iff : Rejected inference.store left right ↔ conflicts = [] ∧ ¬ reached.Addable := by
    rw [← silent_iff_nil]
    constructor
    · rintro ⟨unifier, general, other⟩
      have silent := (silent_iff sound agrees leftOver rightOver solves).mpr
        ⟨unifier, general.unifies⟩
      refine ⟨silent, fun addable => other ?_⟩
      exact (addable_iff sound agrees leftOver rightOver solves silent general).mpr
        ((reached_addable silent).mp addable)
    · rintro ⟨silent, other⟩
      obtain ⟨unifier, general⟩ := Solver.exists_mostGeneral sound leftOver rightOver
        ((silent_iff sound agrees leftOver rightOver solves).mp silent)
      refine ⟨unifier, general, fun addable => other ?_⟩
      exact (reached_addable silent).mpr
        ((addable_iff sound agrees leftOver rightOver solves silent general).mp addable)
  rw [ran]
  by_cases rejected : Rejected inference.store left right
  · obtain ⟨none, other⟩ := rejected_iff.mp rejected
    obtain ⟨provided, settled⟩ := settleSum_rejects operator offset other
      { unified with store := compressed }
    rw [fits_iff.mpr none, settled]
    exact ⟨_, by rw [silent_iff_nil.mpr none], fun _ => ⟨provided, rfl⟩, absurd rejected⟩
  · have settled : reached.Addable ∨ (leftFits && rightFits) = false := by
      by_contra both
      rw [not_or, Bool.not_eq_false] at both
      exact rejected (rejected_iff.mpr ⟨fits_iff.mp both.2, both.1⟩)
    rw [settleSum_silent operator offset settled]
    exact ⟨conflicts, unifiedReported, fun here => absurd here rejected, fun _ => coded⟩

/-! ## Sums -/

/-- Operands that a sum refuses: none of them is a string, and they are rejected. -/
structure Refused (store : Store) (left right : Ty) : Prop where
  left_ne : store.resolve left ≠ .primitive .string
  right_ne : store.resolve right ≠ .primitive .string
  rejected : Rejected store left right

/-- A sum reports conflicts only, unless it refuses its operands. Then it reports this
alone. -/
theorem sumType_reports_exactly (wellFormed : inference.WellFormed)
    (leftOver : left.Over inference.store.cells.size)
    (rightOver : right.Over inference.store.cells.size)
    (leftOffset rightOffset offset : Int) (operator : String) :
    ∃ reported,
      ((sumType left right leftOffset rightOffset offset operator).run inference).2.diagnostics =
        inference.diagnostics ++ reported ∧
      (Refused inference.store left right →
        ∃ provided, reported = [⟨.operatorTypeMismatch operator provided, offset⟩]) ∧
      (¬ Refused inference.store left right → Coded ErrorCode.conflicts reported) := by
  obtain ⟨textual, between, ran, asked, quiet, agrees, textual_iff⟩ :=
    isTextual_iff wellFormed.sound leftOver rightOver
  rw [sumType_eq, run_bind, ran, ← quiet]
  cases textual with
  | true =>
    have strings := textual_iff.mp rfl
    have accepted : ¬ Refused inference.store left right := fun refused =>
      strings.elim refused.left_ne refused.right_ne
    obtain ⟨reported, same, coded⟩ := textSum_conflicts left right leftOffset rightOffset between
    exact ⟨reported, same, fun refused => absurd refused accepted, fun _ => coded⟩
  | false =>
    have others : ¬ (inference.store.resolve left = .primitive .string ∨
        inference.store.resolve right = .primitive .string) := fun strings =>
      Bool.false_ne_true (textual_iff.mpr strings)
    obtain ⟨reported, same, rejects, accepts⟩ := numberSum_reports (asked.wellFormed wellFormed)
      (asked.covered leftOver) (asked.covered rightOver) leftOffset rightOffset offset operator
    simp only [Rejected, agrees.resolve_eq] at rejects accepts
    refine ⟨reported, same, fun refused => rejects refused.rejected, fun accepted => accepts ?_⟩
    intro rejected
    exact accepted ⟨fun string => others (.inl string), fun string => others (.inr string),
      rejected⟩

/-- The type of an expression is over the variables of the state behind it. -/
theorem inferExpression_outcome (expression : Expression) (wellFormed : inference.WellFormed) :
    let outcome := (inferExpression expression).run inference
    outcome.2.WellFormed ∧ outcome.1.2.Over outcome.2.store.cells.size ∧
      inference.store.cells.size ≤ outcome.2.store.cells.size := by
  obtain ⟨_, _, after, ran, covered, walked⟩ :=
    inferExpression_walked expression inference wellFormed
  rw [ran]
  exact ⟨walked.wellFormed wellFormed, covered, walked.framed.refines.size_le⟩

end Inferrer

/-- In every reachable state, what a sum itself reports depends only on what its operands
stand for once both have been inferred. If it reports nothing, both operands and the sum are
of one primitive type that can be added. It reports the operator exactly when no operand is
a string, both can be made equal, and what they are then is neither a variable nor `Number`
nor `Float`, and then it reports nothing else. All other reports are conflicts of a
unification. -/
theorem reachable_sum_exact (inference : Inference) (reachable : Reachable inference)
    (offset : Int) (left right : Expression) :
    let first := (Inferrer.inferExpression left).run inference
    let operands := (Inferrer.inferExpression right).run first.2
    let sum := (Inferrer.inferExpression (.binary offset left "+" right)).run inference
    let refused := Inferrer.Refused operands.2.store first.1.2 operands.1.2
    ∃ reported, sum.2.diagnostics = operands.2.diagnostics ++ reported ∧
      (reported = [] → ∃ kind : Primitive, (kind = .number ∨ kind = .float ∨ kind = .string) ∧
        sum.2.store.resolve first.1.2 = .primitive kind ∧
        sum.2.store.resolve operands.1.2 = .primitive kind ∧
        sum.2.store.resolve sum.1.2 = .primitive kind) ∧
      ((∃ diagnostic ∈ reported, diagnostic.code = .operatorTypeMismatch) ↔ refused) ∧
      (refused → ∃ provided, reported = [⟨.operatorTypeMismatch "+" provided, offset⟩]) ∧
      (reported ≠ [] → ¬ refused → Coded ErrorCode.conflicts reported) := by
  intro first operands sum refused
  obtain ⟨firstFormed, leftOver, -⟩ :=
    Inferrer.inferExpression_outcome left reachable.wellFormed
  obtain ⟨formed, rightOver, grows⟩ := Inferrer.inferExpression_outcome right firstFormed
  have leftOver : first.1.2.Over operands.2.store.cells.size := leftOver.mono grows
  obtain ⟨type, after, ran, adds⟩ := Inferrer.sumType_adds formed leftOver rightOver
    first.1.1.offset operands.1.1.offset offset "+"
  obtain ⟨reported, same, rejects, accepts⟩ := Inferrer.sumType_reports_exactly formed leftOver
    rightOver first.1.1.offset operands.1.1.offset offset "+"
  rw [ran] at same
  let typed := Expression.binary offset first.1.1 "+" operands.1.1
  have sumRan : sum = ((typed, type), after) :=
    (Inferrer.inferExpression_sum offset left right inference).trans
      (congrArg (fun outcome => ((typed, outcome.1), outcome.2)) ran)
  rw [sumRan]
  refine ⟨reported, same, fun none => ?_, ⟨?_, fun refuses => ?_⟩, rejects, fun _ => accepts⟩
  · have quiet : after.diagnostics = operands.2.diagnostics := by
      rw [same, none, List.append_nil]
    obtain ⟨kind, addable, leftIs, rightIs, rfl⟩ := adds.solved quiet
    exact ⟨kind, addable, leftIs, rightIs, rfl⟩
  · rintro ⟨diagnostic, member, code⟩
    by_contra accepted
    have conflict := accepts accepted diagnostic member
    rw [code] at conflict
    exact absurd conflict (by decide)
  · obtain ⟨provided, rfl⟩ := rejects refuses
    exact ⟨_, List.mem_singleton_self _, rfl⟩

/-- A state with one parameter `x` in scope, of which nothing is known. -/
def Inference.withParameter : Inference :=
  ((Operation.enter [("x", .var 0)] [.var 0]).perform.run
    (Operation.newVariable.perform.run {}).2).2

/-- The state with one parameter is reachable. -/
theorem reachable_withParameter : Reachable Inference.withParameter := by
  have size : (Operation.newVariable.perform.run {}).2.store.cells.size = 1 := by decide +kernel
  have allowed : (Operation.enter [("x", .var 0)] [.var 0]).Allowed
      (Operation.newVariable.perform.run {}).2 := by
    change _ ∧ _
    simp [size]
  exact (Reachable.initial.step .newVariable trivial).step _ allowed

/-- The operands of `[x] + [1]` can be made equal, as arrays of numbers, and are refused. -/
theorem sum_of_arrays_refused :
    let left := Expression.array 0 [.identifier ⟨1, "x", none⟩]
    let right := Expression.array 6 [.number 7 (.int 1)]
    let first := (Inferrer.inferExpression left).run Inference.withParameter
    let operands := (Inferrer.inferExpression right).run first.2
    let sum := (Inferrer.inferExpression (.binary 4 left "+" right)).run Inference.withParameter
    sum.2.diagnostics = [⟨.operatorTypeMismatch "+" "Array<Number>", 4⟩] ∧
      Inferrer.Refused operands.2.store first.1.2 operands.1.2 := by
  intro left right first operands sum
  have reports : sum.2.diagnostics = [⟨.operatorTypeMismatch "+" "Array<Number>", 4⟩] := by
    decide +kernel
  have quiet : operands.2.diagnostics = [] := by decide +kernel
  obtain ⟨reported, same, -, refused_iff, -⟩ :=
    reachable_sum_exact Inference.withParameter reachable_withParameter 4 left right
  have here : reported = [⟨.operatorTypeMismatch "+" "Array<Number>", 4⟩] := by
    rw [← reports, same, quiet, List.nil_append]
  exact ⟨reports, refused_iff.mp ⟨_, here ▸ List.mem_singleton_self _, rfl⟩⟩

end ArrowScript
