import ArrowScript.Proofs.Inference.Reachability
import ArrowScript.Proofs.Ty.Instances

/-!
# Instances in reachable states

Whatever has happened to an inference before, an instance of a term is what the term
stands for, with a new variable for each generic one. Nothing that is known already
changes: no variable that exists is linked, no term stands for anything else, and the
variables of the undetermined types are kept as they are.
-/

namespace ArrowScript

open Inferrer

/-- In every reachable state, an instance of a term replaces exactly the variables that occur
in what it stands for and in no undetermined type, each by a new variable of its own, and
makes no other variable. The same holds of several instances that share a renaming. -/
theorem reachable_instances (inference : Inference) (reachable : Reachable inference) :
    (∀ term : Ty, term.Over inference.store.cells.size → ∃ image given after,
      (instantiate term).run inference = (image, { inference with store := after }) ∧
        Solver.Instances inference.store after inference.undetermined [term] [image] given) ∧
    ∀ terms : List Ty, (∀ term ∈ terms, term.Over inference.store.cells.size) →
      ∃ images given after,
        (solve ((terms.mapM (Solver.sharedInstance inference.undetermined)).run [])).run
            inference = ((images, given), { inference with store := after }) ∧
          Solver.Instances inference.store after inference.undetermined terms images given := by
  have wellFormed := reachable.wellFormed
  constructor
  · intro term covered
    obtain ⟨image, given, after, ran, instances⟩ :=
      Solver.freshInstance_instances wellFormed.sound wellFormed.undetermined covered
    refine ⟨image, given, after, ?_, instances⟩
    change (solve (Solver.freshInstance inference.undetermined term)).run inference = _
    rw [run_solve, ran]
  · intro terms covered
    obtain ⟨images, given, after, ran, instances⟩ :=
      Solver.sharedInstances_spec wellFormed.sound wellFormed.undetermined covered
    refine ⟨images, given, after, ?_, instances⟩
    rw [run_solve, ran]

/-- Two variables are made, of which the first is part of an undetermined type. When a function
from the first to an array of the second is instantiated, and the second itself with the same
renaming, the first variable is kept, and the second is replaced by the third at both places. -/
theorem reachable_instances_undetermined :
    let first : Inference := ((Operation.newVariable).perform.run {}).2
    let second : Inference := ((Operation.newVariable).perform.run first).2
    let inference : Inference := ((Operation.enter [] [.array (.var 0)]).perform.run second).2
    let terms : List Ty := [.function [.var 0] (.array (.var 1)), .var 1]
    ∃ images after,
      (solve ((terms.mapM (Solver.sharedInstance inference.undetermined)).run [])).run inference =
          ((images, [(1, 2)]), { inference with store := after }) ∧
        images.map Ty.text = ["(t0) -> Array<t2>", "t2"] ∧
        Solver.Instances inference.store after inference.undetermined terms images [(1, 2)] := by
  intro first second inference terms
  have reachable : Reachable inference := by
    have made : Reachable second :=
      (Reachable.initial.step .newVariable trivial).step .newVariable trivial
    have size : second.store.cells.size = 2 := rfl
    exact made.step (.enter [] [.array (.var 0)]) ⟨by simp, by simp [size]⟩
  have covered : ∀ term ∈ terms, term.Over inference.store.cells.size := by
    have size : inference.store.cells.size = 2 := rfl
    simp [terms, size]
  have outcome :
      let outcome := (solve ((terms.mapM
        (Solver.sharedInstance inference.undetermined)).run [])).run inference
      outcome.1.1.map Ty.text = ["(t0) -> Array<t2>", "t2"] ∧ outcome.1.2 = [(1, 2)] := by
    decide +kernel
  obtain ⟨images, given, after, ran, instances⟩ :=
    (reachable_instances inference reachable).2 terms covered
  rw [ran] at outcome
  obtain ⟨texts, rfl⟩ := outcome
  exact ⟨images, after, ran, texts, instances⟩

end ArrowScript
