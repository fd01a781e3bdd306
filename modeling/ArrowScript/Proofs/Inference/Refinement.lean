import ArrowScript.Proofs.Inference.Reachability
import ArrowScript.Proofs.Ty.Refinement

/-!
# Operations only refine the store

Each thing that can be asked of an inference is a walk in the sense of the frame
condition, also when it reports problems on its way and goes on. So each of them applies
one substitution to what all terms stand for, and so does any number of them, one after
the other. What has been found out about a type is never taken back.
-/

namespace ArrowScript

/-! ## One operation -/

/-- In every reachable state, every operation applies one substitution to what all terms
stand for. It replaces only variables that were free. So terms that stood for the same
still do, the head of a constructed type stays, and a variable that was linked is linked
afterwards to a term that stands for what its link stood for, with the substitution
applied. -/
theorem perform_specializes (inference : Inference) (reachable : Reachable inference)
    (operation : Operation) (allowed : operation.Allowed inference) :
    let before := inference.store
    let after := (operation.perform.run inference).2.store
    ∃ replacement : VariableId → Ty, before.Specializes after replacement ∧
      (∀ first second : Ty, first.Over before.cells.size → second.Over before.cells.size →
        before.resolve first = before.resolve second →
        after.resolve first = after.resolve second) ∧
      (∀ term : Ty, term.Over before.cells.size → ∀ head,
        (before.resolve term).head? = some head → (after.resolve term).head? = some head) ∧
      ∀ id term, before.link? id = some term → ∃ further, after.link? id = some further ∧
        after.resolve further = (before.resolve term).substitute replacement := by
  intro before after
  have wellFormed := reachable.wellFormed
  obtain ⟨_, _, framed⟩ := (Inferrer.perform_effects wellFormed operation allowed).framed
  have specializes : before.Specializes after (before.becomes after) := framed.refines.specializes wellFormed.sound fun _ =>
    framed.free_before wellFormed.sound
  refine ⟨_, specializes, ?_, ?_, ?_⟩
  · exact fun first second firstOver secondOver => specializes.equal firstOver secondOver
  · exact fun term covered head => specializes.head_eq covered
  · exact fun id term => specializes.link wellFormed.sound framed.sound

/-- The variable `t0` is linked to `t1` when the parameters of two functions are unified.
The first pair makes both `Bool`, the second one fails; what has been found out stays, and
the link of `t0` leads to it. -/
theorem perform_specializes_mismatch :
    let made (inference : Inference) := (Operation.newVariable.perform.run inference).2
    let start := made (made {})
    let inference := ((Operation.unify (.var 0) (.var 1) 0).perform.run start).2
    let operation := Operation.unify (.function [.var 0, .array (.var 0)] (.primitive .void))
      (.function [.primitive .bool, .primitive .string] (.primitive .void)) 3
    let after := (operation.perform.run inference).2
    after.diagnostics = [⟨.typeMismatch "Array<Bool>" "String", 3⟩] ∧
      (after.store.resolve (.var 0)).text = "Bool" ∧
      ∃ replacement : VariableId → Ty, inference.store.Specializes after.store replacement ∧
        ∃ further, after.store.link? 0 = some further ∧
          after.store.resolve further =
            (inference.store.resolve (.var 1)).substitute replacement := by
  intro made start inference operation after
  have begun : Reachable start :=
    (Reachable.initial.step .newVariable trivial).step .newVariable trivial
  have unified : (Operation.unify (.var 0) (.var 1) 0).Allowed start :=
    ⟨Nat.zero_lt_two, Nat.one_lt_two⟩
  have allowed : operation.Allowed inference := by
    have size : inference.store.cells.size = 2 := by decide +kernel
    change _ ∧ _
    simp [size]
  obtain ⟨replacement, specializes, -, -, linked⟩ :=
    perform_specializes inference (begun.step _ unified) operation allowed
  have link : inference.store.link? 0 = some (.var 1) := by cbv
  have reported : after.diagnostics = [⟨.typeMismatch "Array<Bool>" "String", 3⟩] := by
    decide +kernel
  have found : (after.store.resolve (.var 0)).text = "Bool" := by decide +kernel
  exact ⟨reported, found, replacement, specializes, linked 0 (.var 1) link⟩

/-! ## Many operations -/

/-- A state that other operations lead to from a given one. -/
inductive Later (inference : Inference) : Inference → Prop
  | here : Later inference inference
  | step {between : Inference} (later : Later inference between) (operation : Operation)
    (allowed : operation.Allowed between) :
    Later inference (operation.perform.run between).2

/-- What is later than a reachable state is reachable. -/
theorem Later.reachable {inference after : Inference} (later : Later inference after)
    (reachable : Reachable inference) : Reachable after := by
  induction later with
  | here => exact reachable
  | step _ operation allowed inductionHypothesis => exact inductionHypothesis.step operation allowed

/-- Operations refine the store, and free nothing that is linked. -/
theorem Later.refines {inference after : Inference} (later : Later inference after)
    (reachable : Reachable inference) :
    inference.store.Refines after.store ∧
      ∀ id, after.store.Free id → inference.store.Free id := by
  induction later with
  | here => exact ⟨.of_agrees (.refl _) reachable.wellFormed.sound, fun id free => free⟩
  | step later operation allowed inductionHypothesis =>
    obtain ⟨refines, linked⟩ := inductionHypothesis
    have wellFormed := (later.reachable reachable).wellFormed
    obtain ⟨_, _, framed⟩ := (Inferrer.perform_effects wellFormed operation allowed).framed
    exact ⟨refines.trans framed.refines,
      fun id free => linked id (framed.free_before wellFormed.sound free)⟩

/-- Any number of operations apply one substitution to what all terms stand for. -/
theorem Later.specializes {inference after : Inference} (later : Later inference after)
    (reachable : Reachable inference) :
    inference.store.Specializes after.store (inference.store.becomes after.store) :=
  (later.refines reachable).1.specializes reachable.wellFormed.sound (later.refines reachable).2

end ArrowScript
