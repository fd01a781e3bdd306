import ArrowScript.Proofs.Inference.Reachability
import ArrowScript.Proofs.Ty.Refinement

/-!
# Unification finds most general unifiers

Unification links variables part by part, and what is linked late changes parts that
have been unified before. Seen from outside it is what textbooks ask for: it reports
nothing exactly when the two types, as they have been resolved, have a common instance.
Then the change of the store is one substitution, a unifier of the two, and every other
unifier is an instance of it.

A unifier of the resolved types extends to a solution of the store, by what the linked
variables stand for. This is why solutions of stores, with which unification is described
elsewhere, say all that there is to say about unifiers.
-/

namespace ArrowScript

/-! ## Unifiers -/

/-- A substitution that makes two terms equal. -/
def Ty.Unifier (left right : Ty) (unifier : VariableId → Ty) : Prop :=
  left.substitute unifier = right.substitute unifier

/-- A unifier through which every unifier factors. -/
structure Ty.MostGeneral (left right : Ty) (unifier : VariableId → Ty) : Prop where
  unifies : Ty.Unifier left right unifier
  factors : ∀ other, Ty.Unifier left right other →
    ∃ further : VariableId → Ty, ∀ id, other id = (unifier id).substitute further

namespace Store

variable {store before after : Store} {left right : Ty}

/-- A substitution, extended to the linked variables by what they stand for. -/
def extended (store : Store) (replacement : VariableId → Ty) (id : VariableId) : Ty :=
  (store.resolve (.var id)).substitute replacement

/-- A term under an extended substitution is its resolution under the substitution. -/
theorem substitute_extended (store : Store) (replacement : VariableId → Ty) (term : Ty) :
    term.substitute (store.extended replacement) =
      (store.resolve term).substitute replacement := by
  rw [resolve_eq_substitute store term, Ty.substitute_substitute]
  rfl

/-- Free variables are not affected by the extension. -/
theorem extended_free {id : VariableId} (free : store.Free id) (replacement : VariableId → Ty) :
    store.extended replacement id = replacement id := by
  rw [extended, resolve_free free, Ty.substitute]

/-- An extended substitution solves the store. -/
theorem Acyclic.models_extended (acyclic : store.Acyclic) (replacement : VariableId → Ty) :
    store.Models (store.extended replacement) := by
  intro term
  rw [substitute_extended, substitute_extended, acyclic.resolve_resolve]

/-- A unifier of the resolutions of two terms, extended, equates the terms. -/
theorem equates_extended {unifier : VariableId → Ty} :
    Solver.Equates (store.extended unifier) [(left, right)] ↔
      Ty.Unifier (store.resolve left) (store.resolve right) unifier := by
  simp [Solver.Equates, substitute_extended, Ty.Unifier]

end Store

namespace Solver

open Store

variable {before after : Store} {left right : Ty} {problems : List Problem}

/-- Without a report both terms stand for the same afterwards. -/
theorem Unified.resolve_eq (unified : Unified before [(left, right)] problems after)
    (none : problems = []) : after.resolve left = after.resolve right := by
  simpa [Equates, substitute_solution] using unified.solved none

/-- Unification reports nothing exactly when the resolved terms have a common instance. -/
theorem Unified.nil_iff (unified : Unified before [(left, right)] problems after)
    (sound : before.Sound) :
    problems = [] ↔ ∃ unifier, Ty.Unifier (before.resolve left) (before.resolve right) unifier := by
  constructor
  · intro none
    refine ⟨after.solution, ?_⟩
    rw [Ty.Unifier, substitute_solution, substitute_solution, unified.refines.resolve_resolve,
      unified.refines.resolve_resolve, unified.resolve_eq none]
  · rintro ⟨unifier, unifies⟩
    exact (unified.general _ (sound.acyclic.models_extended unifier)
      (equates_extended.mpr unifies)).1

/-- Without a report, what has become of the free variables is a most general unifier of
the resolved terms. -/
theorem Unified.mostGeneral (unified : Unified before [(left, right)] problems after)
    (sound : before.Sound) (leftOver : left.Over before.cells.size)
    (rightOver : right.Over before.cells.size) (none : problems = [])
    (specializes : Specializes before after (before.becomes after)) :
    Ty.MostGeneral (before.resolve left) (before.resolve right) (before.becomes after) where
  unifies := by
    rw [Ty.Unifier, ← specializes.resolve_eq left leftOver,
      ← specializes.resolve_eq right rightOver, unified.resolve_eq none]
  factors other unifies := by
    have acyclicAfter := (unified.refines.sound sound).acyclic
    have models : after.Models (before.extended other) :=
      (unified.general _ (sound.acyclic.models_extended other) (equates_extended.mpr unifies)).2
    -- what is free afterwards was free before, where the extension changes nothing
    have unextended (term : Ty) : (after.resolve term).substitute (before.extended other) =
        (after.resolve term).substitute other :=
      Ty.substitute_congr fun id occurs =>
        extended_free (specializes.linked id (acyclicAfter.free_of_mem_resolve occurs)) other
    refine ⟨other, fun id => ?_⟩
    by_cases root : id < before.cells.size ∧ before.Free id
    · rw [becomes_free root.1 root.2]
      calc other id
          = (Ty.var id).substitute (before.extended other) := (extended_free root.2 other).symm
        _ = (after.resolve (.var id)).substitute (before.extended other) := (models _).symm
        _ = (after.resolve (.var id)).substitute other := unextended _
    · rw [becomes_other root, Ty.substitute]

end Solver

/-! ## Unification in reachable states -/

/-- In every reachable state, unifying two terms over its variables adds no diagnostic
exactly when the terms, as they are resolved, have a common instance. If it adds none, both
terms are resolved to the same from then on, and the new resolution of every term is the
old one with a most general unifier applied. -/
theorem unify_mostGeneral (inference : Inference) (reachable : Reachable inference)
    (left right : Ty) (leftOver : left.Over inference.store.cells.size)
    (rightOver : right.Over inference.store.cells.size) (offset : Int) :
    let after := ((Inferrer.unify left right offset).run inference).2
    let leftBefore := inference.store.resolve left
    let rightBefore := inference.store.resolve right
    (after.diagnostics = inference.diagnostics ↔
        ∃ unifier, Ty.Unifier leftBefore rightBefore unifier) ∧
      (after.diagnostics = inference.diagnostics →
        after.store.resolve left = after.store.resolve right ∧
          ∃ unifier, Ty.MostGeneral leftBefore rightBefore unifier ∧
            ∀ term : Ty, term.Over inference.store.cells.size →
              after.store.resolve term = (inference.store.resolve term).substitute unifier) := by
  have sound := reachable.wellFormed.sound
  obtain ⟨problems, after, ran, unified, diagnostics, walked⟩ :=
    Inferrer.unify_spec sound leftOver rightOver offset
  rw [ran]
  have quiet : after.diagnostics = inference.diagnostics ↔ problems = [] := by
    simp [diagnostics]
  have specializes := unified.refines.specializes sound fun _ => walked.framed.free_before sound
  refine ⟨quiet.trans (unified.nil_iff sound), fun silent => ?_⟩
  have none := quiet.mp silent
  exact ⟨unified.resolve_eq none, _,
    unified.mostGeneral sound leftOver rightOver none specializes, specializes.resolve_eq⟩

/-- The types `(t0) -> Array<t1>` and `(Array<t2>) -> t0` are unified. The parameter is
done when the result decides what is in its array; what both stand for then is the most
general type that they have in common. -/
theorem unify_mostGeneral_crossed :
    let made (inference : Inference) := (Operation.newVariable.perform.run inference).2
    let inference := made (made (made {}))
    let left : Ty := .function [.var 0] (.array (.var 1))
    let right : Ty := .function [.array (.var 2)] (.var 0)
    let after := ((Inferrer.unify left right 4).run inference).2
    after.diagnostics = [] ∧
      (after.store.resolve left).text = "(Array<t2>) -> Array<t2>" ∧
      after.store.resolve left = after.store.resolve right ∧
      ∃ unifier, Ty.MostGeneral (inference.store.resolve left) (inference.store.resolve right)
        unifier ∧
        after.store.resolve left = (inference.store.resolve left).substitute unifier := by
  intro made inference left right after
  have reachable : Reachable inference :=
    ((Reachable.initial.step .newVariable trivial).step .newVariable trivial).step
      .newVariable trivial
  have leftOver : left.Over inference.store.cells.size := by
    change left.Over 3
    simp [left]
  have rightOver : right.Over inference.store.cells.size := by
    change right.Over 3
    simp [right]
  have silent : after.diagnostics = inference.diagnostics := by decide +kernel
  obtain ⟨equal, unifier, general, resolved⟩ :=
    (unify_mostGeneral inference reachable left right leftOver rightOver 4).2 silent
  exact ⟨silent, by decide +kernel, equal, unifier, general, resolved left leftOver⟩

end ArrowScript
