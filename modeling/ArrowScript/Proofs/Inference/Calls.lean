import ArrowScript.Proofs.Inference.Coverage
import ArrowScript.Proofs.Inference.Operands
import ArrowScript.Proofs.Inference.Printing

/-!
# What a call reports

A call is judged by the type of its callee. A function is given the arguments, one for each
parameter, and conflicts are reported at the argument. What is not known yet becomes a
function from the types of the arguments, unless it occurs in them. Everything else is
refused, with one diagnostic.

The type of the callee is looked at before the arguments are inferred, though they may
determine it. So the judgement is by what is known of the callee behind the arguments if
these leave it free, or if it has been known all along. A callee that has turned out to be a
number in one of its own arguments is unified with a function all the same. This decides
which problem is reported and where, but not whether there is one.
-/

namespace ArrowScript

open Store

namespace Solver

variable {store : Store}

end Solver

namespace Inferrer

/-! ## Judgements -/

/-- The diagnostics of arguments, each at the offset of its argument. -/
def atOffsets (found : List (List Problem)) (offsets : List Int) : List Diagnostic :=
  (List.zipWith (fun problems offset => problems.map (⟨·, offset⟩)) found offsets).flatten

/-- What a call does that gives arguments to a function. Each conflict is reported at its
argument, and there is none exactly when the parameters can be made equal to the types of
the arguments. -/
structure Passed (params : List Ty) (result : Ty) (before after : Inference)
    (offsets : List Int) (types : List Ty) (type : Ty) : Prop where
  reports : ∃ found : List (List Problem), found.length = offsets.length ∧
    (∀ problems ∈ found, ∀ problem ∈ problems, problem.code ∈ ErrorCode.conflicts) ∧
    after.diagnostics = before.diagnostics ++ atOffsets found offsets
  silent_iff : after.diagnostics = before.diagnostics ↔
    ∃ unifier, Solver.Equates unifier (params.zip (types.map before.store.resolve))
  unified : after.diagnostics = before.diagnostics →
    params.map after.store.resolve = types.map after.store.resolve
  returns : after.store.resolve type = after.store.resolve result

variable {inference : Inference} {arguments : List (Expression × Ty)}

/-! ## Arguments -/

/-- Whatever the callee is, a call reports nothing exactly when the callee can be made a
function from the types of the arguments, and then it has become one. -/
theorem callType_silent_iff (wellFormed : inference.WellFormed) {callee : Ty}
    (calleeOver : callee.Over inference.store.cells.size)
    (argumentsOver : ∀ type ∈ arguments.map (·.2), type.Over inference.store.cells.size)
    (offset : Int) :
    let outcome := (callType callee arguments offset).run inference
    let types := arguments.map (·.2)
    (outcome.2.diagnostics = inference.diagnostics ↔
        ∃ unifier image, (inference.store.resolve callee).substitute unifier =
          .function ((types.map inference.store.resolve).map (·.substitute unifier)) image) ∧
      (outcome.2.diagnostics = inference.diagnostics →
        outcome.2.store.resolve callee =
          .function (types.map outcome.2.store.resolve) (outcome.2.store.resolve outcome.1)) ∧
      Refines inference.store outcome.2.store := by
  obtain ⟨type, after, ran, yields⟩ := callType_yields wellFormed calleeOver argumentsOver offset
  have refines := yields.walked.framed.refines
  rw [ran]
  refine ⟨⟨fun silent => ?_, ?_⟩, yields.solved, refines⟩
  · refine ⟨after.store.solution, after.store.resolve type, ?_⟩
    simp only [List.map_map, Function.comp_def, substitute_solution, refines.resolve_resolve]
    simpa only [List.map_map, Function.comp_def, substitute_solution] using yields.solved silent
  · rintro ⟨unifier, image, fits⟩
    have models := wellFormed.sound.acyclic.models_extended unifier
    simp only [List.map_map, Function.comp_def, ← substitute_extended] at fits
    refine (yields.general _ image models ?_).1
    simpa only [List.map_map, Function.comp_def] using fits

/-- The types of arguments are over the variables of the state behind them. -/
theorem inferArguments_outcome (expressions : List Expression)
    (wellFormed : inference.WellFormed) :
    let outcome := (inferArguments expressions).run inference
    outcome.2.WellFormed ∧ Refines inference.store outcome.2.store ∧
      ∀ type ∈ outcome.1.map (·.2), type.Over outcome.2.store.cells.size := by
  obtain ⟨_, after, ran, covered, walked⟩ := inferArguments_walked expressions inference wellFormed
  rw [ran]
  exact ⟨walked.wellFormed wellFormed, walked.framed.refines, covered⟩

/-- The end of a chain stands for what its beginning stands for, in the state behind. -/
theorem compress_outcome (wellFormed : inference.WellFormed) {type : Ty}
    (covered : type.Over inference.store.cells.size) :
    let outcome := (solve (Solver.compress type)).run inference
    outcome.2.WellFormed ∧ outcome.1.Over outcome.2.store.cells.size ∧
      outcome.2.store.resolve outcome.1 = outcome.2.store.resolve type := by
  obtain ⟨reached, store, ran, agrees, -, same, reachedOver, -, following⟩ :=
    compress_spec wellFormed.sound covered
  rw [ran]
  exact ⟨following.wellFormed wellFormed, following.covered reachedOver, by
    rw [agrees.resolve_eq, agrees.resolve_eq, same]⟩

/-- What the rule of calls is applied to: the end of the chain that begins with the type of
the callee, which stands for the same as this behind the arguments, and their types. -/
theorem inferCall_parts (callee : Expression) (arguments : List Expression)
    (wellFormed : inference.WellFormed) :
    let first := (inferExpression callee).run inference
    let followed := (solve (Solver.compress first.1.2)).run first.2
    let others := (inferArguments arguments).run followed.2
    others.2.WellFormed ∧ followed.1.Over others.2.store.cells.size ∧
      others.2.store.resolve followed.1 = others.2.store.resolve first.1.2 ∧
      ∀ type ∈ others.1.map (·.2), type.Over others.2.store.cells.size := by
  obtain ⟨firstFormed, calleeOver, -⟩ := inferExpression_outcome callee wellFormed
  obtain ⟨followedFormed, followedOver, same⟩ := compress_outcome firstFormed calleeOver
  obtain ⟨formed, refines, typesOver⟩ := inferArguments_outcome arguments followedFormed
  exact ⟨formed, followedOver.mono refines.size_le, refines.resolve_eq same, typesOver⟩

/-- Every call, also one whose callee its arguments have determined, reports nothing exactly
when the callee can be made a function from the types of the arguments. It has become one
then, and the call has its result. -/
theorem inferCall_silent_iff (wellFormed : inference.WellFormed) (offset : Int)
    (callee : Expression) (arguments : List Expression) :
    let first := (inferExpression callee).run inference
    let followed := (solve (Solver.compress first.1.2)).run first.2
    let others := (inferArguments arguments).run followed.2
    let call := (inferExpression (.call offset callee arguments)).run inference
    let types := others.1.map (·.2)
    (call.2.diagnostics = others.2.diagnostics ↔
        ∃ unifier image, (others.2.store.resolve first.1.2).substitute unifier =
          .function ((types.map others.2.store.resolve).map (·.substitute unifier)) image) ∧
      (call.2.diagnostics = others.2.diagnostics →
        call.2.store.resolve first.1.2 =
          .function (types.map call.2.store.resolve) (call.2.store.resolve call.1.2)) := by
  intro first followed others call types
  obtain ⟨formed, followedOver, known, typesOver⟩ := inferCall_parts callee arguments wellFormed
  obtain ⟨silent_iff, unified, refines⟩ :=
    callType_silent_iff formed followedOver typesOver offset
  rw [known] at silent_iff
  exact ⟨silent_iff, fun silent => (refines.resolve_eq known).symm.trans (unified silent)⟩

end Inferrer

end ArrowScript
