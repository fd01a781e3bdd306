import ArrowScript.Proofs.Inference.Rules

/-!
# The rule of sums

A sum with a string on one side asks for strings on both. Any other sum asks for one
operand type on both sides, and settles it on `Number` if nothing more is known. So a
sum is typed without a problem only if both sides have the same additive type. The
converse fails by design: a side that is not known yet is settled too early.
-/

namespace ArrowScript.Inferrer

open Store

variable {before between after inference : Inference} {type : Ty}

/-- Asking whether a type is a string changes only the length of chains. -/
theorem isString_spec (sound : inference.store.Sound)
    (covered : type.Over inference.store.cells.size) :
    ∃ textual store, (isString type).run inference = (textual, { inference with store }) ∧
      Walked inference { inference with store } [] [] [] := by
  obtain ⟨reached, store, ran, -, -, -, -, -, walked⟩ := compress_spec sound covered
  rw [isString, run_bind, ran]
  split
  · exact ⟨true, store, rfl, walked⟩
  · exact ⟨false, store, rfl, walked⟩

/-- What a rule of `+` yields. -/
structure Adds (before after : Inference) (left right type : Ty) : Prop where
  covered : type.Over after.store.cells.size
  walked : Walked before after (left.vars ++ right.vars) type.vars []
  solved : after.diagnostics = before.diagnostics →
    ∃ kind : Primitive, (kind = .number ∨ kind = .float ∨ kind = .string) ∧
      after.store.resolve left = .primitive kind ∧
      after.store.resolve right = .primitive kind ∧ type = .primitive kind

/-- What changes only the length of chains can come first. -/
theorem Adds.after_walked {left right : Ty} (adds : Adds between after left right type)
    (walked : Walked before between [] [] []) (sound : before.store.Sound)
    (leftOver : left.Over before.store.cells.size)
    (rightOver : right.Over before.store.cells.size) : Adds before after left right type where
  covered := adds.covered
  walked := by
    have old (id : VariableId) (member : id ∈ left.vars ++ right.vars) :
        id < before.store.cells.size :=
      (List.mem_append.mp member).elim leftOver.lt rightOver.lt
    have start := walked.wider sound old (List.nil_subset _)
    exact (start.append adds.walked (by simp)).fewer fun id member => by simp [member]
  solved quiet :=
    adds.solved (quiet_both walked.diagnostics adds.walked.diagnostics quiet).2

/-- Both sides of a sum are unified with the same term. -/
theorem unifyBoth_solves (wellFormed : inference.WellFormed) {left right common : Ty}
    (leftOver : left.Over inference.store.cells.size)
    (rightOver : right.Over inference.store.cells.size)
    (commonOver : common.Over inference.store.cells.size) (leftOffset rightOffset : Int) :
    ∃ leftFits rightFits between after,
      (unify left common leftOffset).run inference = (leftFits, between) ∧
      (unify right common rightOffset).run between = (rightFits, after) ∧
      Solves inference after (left.vars ++ right.vars ++ common.vars)
        [(left, common), (right, common)] ∧
      (after.diagnostics = inference.diagnostics → leftFits = true ∧ rightFits = true) := by
  obtain ⟨leftFits, between, leftRan, first, leftQuiet⟩ :=
    unify_solves wellFormed.sound leftOver commonOver leftOffset
  obtain ⟨rightFits, after, rightRan, second, rightQuiet⟩ :=
    unify_solves (first.walked.wellFormed wellFormed).sound (first.walked.covered rightOver)
      (first.walked.covered commonOver) rightOffset
  have old (id : VariableId)
      (member : id ∈ left.vars ++ right.vars ++ common.vars) :
      id < inference.store.cells.size := by
    rcases List.mem_append.mp member with sides | inCommon
    · exact (List.mem_append.mp sides).elim leftOver.lt rightOver.lt
    · exact commonOver.lt inCommon
  have both := (first.wider wellFormed.sound old (by
    intro id
    simp only [List.mem_append]
    tauto)).append second (by
    intro id
    simp only [List.mem_append]
    tauto)
  refine ⟨leftFits, rightFits, between, after, leftRan, rightRan, both, fun quiet => ?_⟩
  obtain ⟨quietLeft, quietRight⟩ :=
    quiet_both first.walked.diagnostics second.walked.diagnostics quiet
  exact ⟨leftQuiet.mpr quietLeft, rightQuiet.mpr quietRight⟩

/-- The sum of two strings. -/
def textSum (left right : Ty) (leftOffset rightOffset : Int) : Inferrer Ty := do
  let _ ← unify left (.primitive .string) leftOffset
  let _ ← unify right (.primitive .string) rightOffset
  return .primitive .string

/-- The sum of two strings has two strings as its parts. -/
theorem textSum_adds (wellFormed : inference.WellFormed) {left right : Ty}
    (leftOver : left.Over inference.store.cells.size)
    (rightOver : right.Over inference.store.cells.size) (leftOffset rightOffset : Int) :
    ∃ type after, (textSum left right leftOffset rightOffset).run inference = (type, after) ∧
      Adds inference after left right type := by
  obtain ⟨_, _, between, after, leftRan, rightRan, both, -⟩ := unifyBoth_solves wellFormed leftOver
    rightOver (by simp : (Ty.primitive .string).Over _) leftOffset rightOffset
  refine ⟨.primitive .string, after, ?_, by simp, ?_, ?_⟩
  · rw [textSum, run_bind, leftRan, run_bind, rightRan, run_pure]
  · simpa using both.walked
  · intro quiet
    have equates := both.solved quiet
    simp only [Solver.equates_cons, substitute_solution] at equates
    exact ⟨.string, .inr (.inr rfl), equates.1, equates.2.1, rfl⟩

/-- Reports an operand type that is not numeric, unless it has a problem already. -/
def rejectSum (operator : String) (offset : Int) (fits : Bool) (other : Ty) : Inferrer Ty := do
  if fits then
    let provided ← solve (Solver.print other)
    report [.operatorTypeMismatch operator provided] offset
  freshVariable

/-- A type that is not numeric is reported once. -/
theorem rejectSum_spec (wellFormed : inference.WellFormed) (operator : String) (offset : Int)
    (fits : Bool) {other : Ty} (covered : other.Over inference.store.cells.size) :
    ∃ type after, (rejectSum operator offset fits other).run inference = (type, after) ∧
      type.Over after.store.cells.size ∧ Walked inference after [] type.vars [] ∧
      (after.diagnostics = inference.diagnostics → fits = false) := by
  cases fits with
  | false =>
    obtain ⟨store, ran, agrees, size, added⟩ := freshVariable_spec wellFormed.sound
    refine ⟨_, _, ran, ?_, added, fun _ => rfl⟩
    rw [Ty.over_var, size]
    exact Nat.lt_succ_self _
  | true =>
    obtain ⟨text, store, printRan, -, printed⟩ := print_spec wellFormed.sound covered
    obtain ⟨type, after, ran, typeOver, refused, reported⟩ := refuse_spec
      (printed.wellFormed wellFormed) (.operatorTypeMismatch operator text) offset
    refine ⟨type, after, ?_, typeOver, printed.append refused (by simp), ?_⟩
    · rw [← ran, rejectSum, if_pos rfl, run_bind, printRan]
    · exact fun quiet => absurd quiet reported

/-- The type of a sum of numbers, given the end of the chain of its operand type. -/
def settleSum (operator : String) (offset : Int) (fits : Bool) : Ty → Inferrer Ty
  | .var free => do
    solve (modify (·.setLink free (.primitive .number)))
    return .primitive .number
  | .primitive .number => return .primitive .number
  | .primitive .float => return .primitive .float
  | other => rejectSum operator offset fits other

/-- Both sides of a sum of numbers have its type, which is numeric. -/
theorem settleSum_spec (wellFormed : inference.WellFormed) (operator : String) (offset : Int)
    {fits : Bool} {reached : Ty} (covered : reached.Over inference.store.cells.size)
    (free : ∀ id, reached = .var id → inference.store.Free id) :
    ∃ type after, (settleSum operator offset fits reached).run inference = (type, after) ∧
      type.Over after.store.cells.size ∧
      Walked inference after reached.vars type.vars [] ∧
      (after.diagnostics = inference.diagnostics → fits = true →
        ∃ kind : Primitive, (kind = .number ∨ kind = .float) ∧
          after.store.resolve reached = .primitive kind ∧ type = .primitive kind) := by
  have settled (kind : Primitive) (numeric : kind = .number ∨ kind = .float)
      (ran : (settleSum operator offset fits (.primitive kind)).run inference =
        (.primitive kind, inference)) :
      ∃ type after,
        (settleSum operator offset fits (.primitive kind)).run inference = (type, after) ∧
          type.Over after.store.cells.size ∧ Walked inference after [] type.vars [] ∧
          (after.diagnostics = inference.diagnostics → fits = true →
            ∃ kind' : Primitive, (kind' = .number ∨ kind' = .float) ∧
              after.store.resolve (.primitive kind) = .primitive kind' ∧
              type = .primitive kind') :=
    ⟨_, _, ran, by simp, walked_store (.of_agrees (.refl _) wellFormed.sound),
      fun _ _ => ⟨kind, numeric, rfl, rfl⟩⟩
  have rejected (ran : settleSum operator offset fits reached =
      rejectSum operator offset fits reached) :
      ∃ type after, (settleSum operator offset fits reached).run inference = (type, after) ∧
        type.Over after.store.cells.size ∧
        Walked inference after reached.vars type.vars [] ∧
        (after.diagnostics = inference.diagnostics → fits = true →
          ∃ kind : Primitive, (kind = .number ∨ kind = .float) ∧
            after.store.resolve reached = .primitive kind ∧ type = .primitive kind) := by
    obtain ⟨type, after, rejectRan, typeOver, walked, reported⟩ :=
      rejectSum_spec wellFormed operator offset fits covered
    refine ⟨type, after, by rw [ran, rejectRan], typeOver, ?_, fun quiet fitted => ?_⟩
    · exact (walked.wider wellFormed.sound (fun id => covered.lt) (List.nil_subset _)).fewer
        fun id member => by simp [member]
    · exact absurd (reported quiet) (by simp [fitted])
  cases reached with
  | var id =>
    have unified := Solver.Unified.setLink wellFormed.sound covered (free id rfl)
      (by simp : (Ty.primitive .number).Over _) (by simp)
    refine ⟨.primitive .number, _, rfl, by simp, walked_store ?_, fun _ _ => ?_⟩
    · simpa using framed_unified wellFormed.sound covered (by simp) unified
    · exact ⟨.number, .inl rfl, (Solver.equates_cons.mp (unified.solved rfl)).1, rfl⟩
  | primitive kind =>
    cases kind with
    | number => exact settled .number (.inl rfl) rfl
    | float => exact settled .float (.inr rfl) rfl
    | bool => exact rejected rfl
    | string => exact rejected rfl
    | void => exact rejected rfl
    | unknown => exact rejected rfl
  | array element => exact rejected rfl
  | function params result => exact rejected rfl
  | shapeless => exact rejected rfl

/-- The sum of two numbers. -/
def numberSum (left right : Ty) (leftOffset rightOffset offset : Int) (operator : String) :
    Inferrer Ty := do
  let operand ← solve Solver.fresh
  let leftFits ← unify left (.var operand) leftOffset
  let rightFits ← unify right (.var operand) rightOffset
  let reached ← solve (Solver.compress (.var operand))
  settleSum operator offset (leftFits && rightFits) reached

/-- The sum of two numbers has two numbers of the same type as its parts. -/
theorem numberSum_adds (wellFormed : inference.WellFormed) {left right : Ty}
    (leftOver : left.Over inference.store.cells.size)
    (rightOver : right.Over inference.store.cells.size)
    (leftOffset rightOffset offset : Int) (operator : String) :
    ∃ type after,
      (numberSum left right leftOffset rightOffset offset operator).run inference =
        (type, after) ∧ Adds inference after left right type := by
  obtain ⟨store, freshRan, agrees, size, added⟩ := fresh_spec wellFormed.sound
  have formed := added.wellFormed wellFormed
  have operandOver : (Ty.var inference.store.cells.size).Over store.cells.size := by simp [size]
  obtain ⟨leftFits, rightFits, between, unified, leftRan, rightRan, both, fitted⟩ :=
    unifyBoth_solves formed (added.covered leftOver) (added.covered rightOver) operandOver
      leftOffset rightOffset
  have unifiedFormed := both.walked.wellFormed formed
  have unifiedOver := both.walked.covered operandOver
  obtain ⟨reached, compressed, compressRan, agreesCompressed, sizeCompressed, same, reachedOver,
    free, following⟩ := compress_spec unifiedFormed.sound unifiedOver
  have reachedOver := following.covered reachedOver
  obtain ⟨type, after, settleRan, typeOver, settling, settled⟩ :=
    settleSum_spec (following.wellFormed unifiedFormed) operator offset reachedOver
      fun id here => (agreesCompressed.free_iff id).mpr (free id here)
  refine ⟨type, after, ?_, typeOver, ?_, fun quiet => ?_⟩
  · rw [numberSum, run_bind, freshRan, run_bind, leftRan, run_bind, rightRan, run_bind,
      compressRan, settleRan]
  · -- the end of the chain is reached from the operand, and the operand is fresh
    have settlingOperand : Walked { unified with store := compressed } after
        (Ty.var inference.store.cells.size).vars type.vars [] := by
      refine settling.knowing following.framed.sound
        (fun id => (following.covered unifiedOver).lt) ?_
      intro id reaches
      rw [reaches_vars, agreesCompressed.resolve_eq] at reaches ⊢
      exact same ▸ reaches
    have sidesOld (id : VariableId) (member : id ∈ left.vars ++ right.vars) :
        id < inference.store.cells.size :=
      (List.mem_append.mp member).elim leftOver.lt rightOver.lt
    have start := added.wider wellFormed.sound sidesOld (List.nil_subset _)
    have unifying := start.append both.walked (by simp)
    have whole := (unifying.append following (by simp)).append settlingOperand (by simp)
    exact whole.fewer fun id member => by simp [member]
  · obtain ⟨quietUnified, quietSettled⟩ := quiet_both both.walked.diagnostics
      (following.diagnostics.trans settling.diagnostics) quiet
    obtain ⟨leftTrue, rightTrue⟩ := fitted quietUnified
    obtain ⟨kind, numeric, resolved, typeIs⟩ :=
      settled quietSettled (by simp [leftTrue, rightTrue])
    have equates := both.solved quietUnified
    simp only [Solver.equates_cons, substitute_solution, ← same] at equates
    have onward := (following.framed.refines.trans settling.framed.refines)
    refine ⟨kind, numeric.imp_right .inl, ?_, ?_, typeIs⟩
    · rw [onward.resolve_eq equates.1, resolved]
    · rw [onward.resolve_eq equates.2.1, resolved]

/-- A sum is either one of strings or one of numbers. -/
theorem sumType_eq (left right : Ty) (leftOffset rightOffset offset : Int) (operator : String) :
    sumType left right leftOffset rightOffset offset operator = (do
      if ← (do if ← isString left then pure true else isString right) then
        textSum left right leftOffset rightOffset
      else numberSum left right leftOffset rightOffset offset operator) := by
  rw [sumType, bind_assoc]
  apply bind_congr
  intro leftTextual
  -- the rest of the rule stands behind both ways to answer the question
  cases leftTextual <;> apply bind_congr <;> intro textual <;> cases textual
  case false.true | true.true => rfl
  case false.false | true.false =>
    apply bind_congr
    intro operand
    apply bind_congr
    intro leftFits
    apply bind_congr
    intro rightFits
    apply bind_congr
    intro reached
    cases reached with
    | primitive kind => cases kind <;> rfl
    | _ => rfl

/-- A sum without a problem has two parts of one primitive type that can be added. -/
theorem sumType_adds (wellFormed : inference.WellFormed) {left right : Ty}
    (leftOver : left.Over inference.store.cells.size)
    (rightOver : right.Over inference.store.cells.size)
    (leftOffset rightOffset offset : Int) (operator : String) :
    ∃ type after,
      (sumType left right leftOffset rightOffset offset operator).run inference =
        (type, after) ∧ Adds inference after left right type := by
  obtain ⟨textual, between, ran, asked⟩ : ∃ textual between,
      (do if ← isString left then pure true else isString right : Inferrer Bool).run inference =
        (textual, between) ∧ Walked inference between [] [] [] := by
    obtain ⟨leftTextual, store, leftRan, leftAsked⟩ := isString_spec wellFormed.sound leftOver
    obtain ⟨rightTextual, more, rightRan, rightAsked⟩ :=
      isString_spec leftAsked.framed.sound (leftAsked.covered rightOver)
    rw [run_bind, leftRan]
    cases leftTextual with
    | true => exact ⟨true, _, rfl, leftAsked⟩
    | false => exact ⟨rightTextual, _, rightRan, leftAsked.append rightAsked (by simp)⟩
  have formed := asked.wellFormed wellFormed
  rw [sumType_eq, run_bind, ran]
  cases textual with
  | true =>
    obtain ⟨type, after, sumRan, adds⟩ := textSum_adds formed (asked.covered leftOver)
      (asked.covered rightOver) leftOffset rightOffset
    exact ⟨type, after, sumRan, adds.after_walked asked wellFormed.sound leftOver rightOver⟩
  | false =>
    obtain ⟨type, after, sumRan, adds⟩ := numberSum_adds formed (asked.covered leftOver)
      (asked.covered rightOver) leftOffset rightOffset offset operator
    exact ⟨type, after, sumRan, adds.after_walked asked wellFormed.sound leftOver rightOver⟩

end ArrowScript.Inferrer
