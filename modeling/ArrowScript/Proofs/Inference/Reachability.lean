import ArrowScript.Proofs.Inference.Trees

/-!
# Reachable states

An inference can be driven from outside by any operations in any order: variables are
made, terms are unified, instantiated, printed and searched, scopes change, and parts
of trees are inferred, with or without problems. Only the links of variables are never
set from outside.

Every operation keeps a state well-formed, so in every state that is reached the store
has no cycles, and every walk through a term comes to its end: within its limit it is
carried out just as it would be without one.
-/

namespace ArrowScript

/-- What can be asked of an inference. -/
inductive Operation where
  | newVariable
  | unify (left right : Ty) (offset : Int)
  | copy (type : Ty) (given : Renaming)
  | lookup (name : String)
  | annotation (node : Node)
  | infer (node : Node)
  | inferProgram (program : Program)
  | compress (type : Ty)
  | search (sought : VariableId) (type : Ty)
  | print (type : Ty)
  | enter (environment : List (String × Ty)) (undetermined : List Ty)

namespace Operation

open Inferrer

/-- An operation is only given terms over the variables of the store: those that other
operations have made, and what is composed of them. -/
def Allowed (inference : Inference) : Operation → Prop
  | newVariable | lookup _ | annotation _ | infer _ | inferProgram _ => True
  | unify left right _ =>
    left.Over inference.store.cells.size ∧ right.Over inference.store.cells.size
  | copy type given => type.Over inference.store.cells.size ∧
    ∀ id renamed, given.lookup id = some renamed → renamed < inference.store.cells.size
  | compress type | search _ type | print type => type.Over inference.store.cells.size
  | enter environment undetermined =>
    (∀ entry ∈ environment, entry.2.Over inference.store.cells.size) ∧
      ∀ type ∈ undetermined, type.Over inference.store.cells.size

/-- A walk over a node, if there is a rule for it. -/
def ofRule : Except InternalError (Inferrer Ty) → Inferrer (List Ty)
  | .ok walk => do return [← walk]
  | .error _ => return []

/-- Performs an operation and answers with the terms that it makes. -/
def perform : Operation → Inferrer (List Ty)
  | newVariable => do return [← freshVariable]
  | unify left right offset => do
    let _ ← Inferrer.unify left right offset
    return []
  | copy type given => do
    let undetermined := (← get).undetermined
    let (image, _) ← solve ((Solver.sharedInstance undetermined type).run given)
    return [image]
  | lookup name => do return [← Inferrer.lookup name]
  | annotation node => ofRule (ascriptionNodeType node)
  | infer node => ofRule (inferNode node)
  | inferProgram program => do return (← inferStatements program.body).map (·.2)
  | compress type => do return [← solve (Solver.compress type)]
  | search sought type => do
    let _ ← solve (Solver.occursIn sought type)
    return []
  | print type => do
    let _ ← solve (Solver.print type)
    return []
  | enter environment undetermined => do
    modify fun inference => { inference with environment, undetermined }
    return []

end Operation

/-- A state that is reached from the initial one by operations. -/
inductive Reachable : Inference → Prop
  | initial : Reachable {}
  | step {inference : Inference} (reached : Reachable inference) (operation : Operation)
    (allowed : operation.Allowed inference) :
    Reachable (operation.perform.run inference).2

namespace Inferrer

variable {inference after : Inference}

/-- A walk that leaves a well-formed state and makes terms over its variables. -/
def Makes (outcome : List Ty × Inference) : Prop :=
  outcome.2.WellFormed ∧ ∀ type ∈ outcome.1, type.Over outcome.2.store.cells.size

/-- What an operation does: it leaves a well-formed state, makes terms over its variables,
and touches no more of the store than a walk does. -/
structure Effects (inference : Inference) (outcome : List Ty × Inference) : Prop where
  makes : Makes outcome
  framed : ∃ known made, Store.Framed inference.store outcome.2.store known made

/-- A walk does what an operation does. -/
theorem Walked.effects {known made : List VariableId} {bound : List (String × Ty)}
    {types : List Ty} (walked : Walked inference after known made bound)
    (wellFormed : inference.WellFormed)
    (covered : ∀ type ∈ types, type.Over after.store.cells.size) :
    Effects inference (types, after) :=
  ⟨⟨walked.wellFormed wellFormed, covered⟩, known, made, walked.framed⟩

/-- So does what leaves the store alone and makes nothing. -/
theorem Effects.nothing (wellFormed : inference.WellFormed) (formed : after.WellFormed)
    (same : after.store = inference.store) : Effects inference ([], after) := by
  refine ⟨⟨formed, by simp⟩, [], [], ?_⟩
  rw [same]
  exact .of_agrees (.refl _) wellFormed.sound

/-- The walk over a node does what an operation does, if there is a rule for it. -/
theorem inferNode_effects (wellFormed : inference.WellFormed) (node : Node) :
    Effects inference ((Operation.ofRule (inferNode node)).run inference) := by
  have nothing : Effects inference ([], inference) := .nothing wellFormed wellFormed rfl
  cases node with
  | expression root =>
    obtain ⟨typed, type, after, ran, covered, walked⟩ :=
      inferExpression_walked root inference wellFormed
    change Effects inference ([((inferExpression root).run inference).1.2],
      ((inferExpression root).run inference).2)
    rw [ran]
    exact walked.effects wellFormed (by simpa using covered)
  | statement root =>
    obtain ⟨typed, type, after, bound, ran, covered, walked⟩ :=
      inferStatement_walked root inference wellFormed
    change Effects inference ([((inferStatement root).run inference).1.2],
      ((inferStatement root).run inference).2)
    rw [ran]
    exact walked.effects wellFormed (by simpa using covered)
  | ascription root => exact nothing
  | parameter root => exact nothing
  | block root => exact nothing
  | program root => exact nothing
  | plain offset => exact nothing

/-- Reading the type that a node denotes does what an operation does. -/
theorem ascriptionNodeType_effects (wellFormed : inference.WellFormed) (node : Node) :
    Effects inference ((Operation.ofRule (ascriptionNodeType node)).run inference) := by
  have nothing : Effects inference ([], inference) := .nothing wellFormed wellFormed rfl
  cases node with
  | ascription root =>
    obtain ⟨type, store, ran, invents⟩ :=
      ascriptionType_invents root inference wellFormed.sound
    change Effects inference ([((ascriptionType root).run inference).1],
      ((ascriptionType root).run inference).2)
    rw [ran]
    exact (walked_store (invents.framed wellFormed.sound)).effects wellFormed invents.covered
  | expression root => exact nothing
  | statement root => exact nothing
  | parameter root => exact nothing
  | block root => exact nothing
  | program root => exact nothing
  | plain offset => exact nothing

/-- Every operation keeps a state well-formed and is framed. -/
theorem perform_effects (wellFormed : inference.WellFormed) (operation : Operation)
    (allowed : operation.Allowed inference) :
    Effects inference (operation.perform.run inference) := by
  cases operation with
  | newVariable =>
    obtain ⟨store, ran, -, size, walked⟩ := freshVariable_spec wellFormed.sound
    rw [Operation.perform, run_bind, ran, run_pure]
    exact walked.effects wellFormed (by simp [size])
  | unify left right offset =>
    obtain ⟨_, after, ran, solves, -⟩ :=
      unify_solves wellFormed.sound allowed.1 allowed.2 offset
    rw [Operation.perform, run_bind, ran, run_pure]
    exact solves.walked.effects wellFormed (by simp)
  | copy type given =>
    obtain ⟨image, extended, after, ran, -, renamed, imageEq, all⟩ :=
      Solver.sharedInstance_spec wellFormed.sound wellFormed.undetermined allowed.1 allowed.2
    have covered : image.Over after.cells.size :=
      imageEq ▸ renamed.covered (wellFormed.sound.resolve_over allowed.1)
    change Effects inference ([(((Solver.sharedInstance _ _).run given).run inference.store).1.1],
      { inference with store := (((Solver.sharedInstance _ _).run given).run inference.store).2 })
    rw [ran]
    exact (walked_store (.of_agrees renamed.agrees wellFormed.sound)).effects wellFormed
      (by simpa using covered)
  | lookup name =>
    obtain ⟨type, after, ran, covered, walked⟩ := lookup_walked wellFormed name
    rw [Operation.perform, run_bind, ran, run_pure]
    exact walked.effects wellFormed (by simpa using covered)
  | annotation node => exact ascriptionNodeType_effects wellFormed node
  | infer node => exact inferNode_effects wellFormed node
  | inferProgram program =>
    obtain ⟨inferred, after, bound, ran, covered, walked⟩ :=
      inferStatements_walked program.body inference wellFormed
    rw [Operation.perform, run_bind, ran, run_pure]
    exact walked.effects wellFormed covered
  | compress type =>
    obtain ⟨reached, store, ran, -, size, -, covered, -, walked⟩ :=
      compress_spec wellFormed.sound allowed
    rw [Operation.perform, run_bind, ran, run_pure]
    exact walked.effects wellFormed (by simpa [size] using covered)
  | search sought type =>
    obtain ⟨agrees, -, -⟩ := Solver.occursIn_spec wellFormed.sound allowed sought
    rw [Operation.perform, run_bind, run_solve, run_pure]
    exact (walked_store (.of_agrees agrees wellFormed.sound)).effects wellFormed (by simp)
  | print type =>
    obtain ⟨text, store, ran, -, walked⟩ := print_spec wellFormed.sound allowed
    rw [Operation.perform, run_bind, ran, run_pure]
    exact walked.effects wellFormed (by simp)
  | enter environment undetermined =>
    have entered : Inference.WellFormed { inference with environment, undetermined } :=
      ⟨wellFormed.sound, allowed.1, allowed.2⟩
    exact .nothing wellFormed entered rfl

/-- Every operation keeps a state well-formed. -/
theorem perform_makes (wellFormed : inference.WellFormed) (operation : Operation)
    (allowed : operation.Allowed inference) : Makes (operation.perform.run inference) :=
  (perform_effects wellFormed operation allowed).makes

end Inferrer

/-- Every reachable state is well-formed. -/
theorem Reachable.wellFormed {inference : Inference} (reachable : Reachable inference) :
    inference.WellFormed := by
  induction reachable with
  | initial => exact Inference.wellFormed_empty
  | step _ operation allowed inductionHypothesis =>
    exact (Inferrer.perform_makes inductionHypothesis operation allowed).1

/-- Every walk through a term comes to its end. What is computed within a limit is what the
walk without a limit leads to. -/
structure Traversable (inference : Inference) (term : Ty) : Prop where
  compress : inference.store.Ends term ((Solver.compress term).run inference.store).1
  search : ∀ sought,
    Solver.Searches sought inference.store [term]
      ((Solver.occursIn sought term).run inference.store).1
      ((Solver.occursIn sought term).run inference.store).2
  print : Solver.Prints inference.store term ((Solver.print term).run inference.store).1
    ((Solver.print term).run inference.store).2
  copy : ∀ given : Renaming,
    (∀ id renamed, given.lookup id = some renamed → renamed < inference.store.cells.size) →
    ∃ image extended after,
      ((Solver.sharedInstance inference.undetermined term).run given).run inference.store =
        ((image, extended), after) ∧
      Solver.Expands Solver.renamingRunner (Solver.Renames inference.undetermined)
        (given, inference.store) [term] [image] (extended, after)
  unify : ∀ other : Ty, other.Over inference.store.cells.size →
    Solver.Unifies inference.store [(term, other)]
      ((Solver.unify term other).run inference.store).1
      ((Solver.unify term other).run inference.store).2

/-- In a well-formed state all walks come to their end. -/
theorem Inference.WellFormed.traversable {inference : Inference}
    (wellFormed : inference.WellFormed) {term : Ty}
    (covered : term.Over inference.store.cells.size) : Traversable inference term where
  compress := Solver.compress_ends wellFormed.sound.acyclic term
  search := Solver.occursIn_searches wellFormed.sound covered
  print := (Solver.print_prints wellFormed.sound covered).1
  copy given inside := by
    obtain ⟨image, extended, after, ran, expands, -⟩ :=
      Solver.sharedInstance_spec wellFormed.sound wellFormed.undetermined covered inside
    exact ⟨image, extended, after, ran, expands⟩
  unify other otherOver := Solver.unify_unifies wellFormed.sound covered otherOver

/-- In every reachable state no variable is reached from its own link, every walk through a
term comes to its end, and every operation makes terms of which the same holds in the
state that it leads to. -/
theorem reachable_acyclic_traversable (inference : Inference) (reachable : Reachable inference) :
    inference.store.Acyclic ∧
      (∀ term : Ty, term.Over inference.store.cells.size → Traversable inference term) ∧
      ∀ operation : Operation, operation.Allowed inference →
        ∀ term ∈ (operation.perform.run inference).1,
          Traversable (operation.perform.run inference).2 term := by
  have wellFormed := reachable.wellFormed
  refine ⟨wellFormed.sound.acyclic, fun term covered => wellFormed.traversable covered, ?_⟩
  intro operation allowed term member
  obtain ⟨formed, covered⟩ := Inferrer.perform_makes wellFormed operation allowed
  exact formed.traversable (covered term member)

/-- A variable is made, and is not unified with an array of itself: the conflict is
reported, and what holds of every reachable state holds of this one. -/
theorem acyclic_of_infinite_type :
    let start : Inference := ((Operation.newVariable).perform.run {}).2
    let outcome := (Operation.unify (.var 0) (.array (.var 0)) 5).perform.run start
    outcome.2.diagnostics = [⟨.infiniteType "t0" "Array<t0>", 5⟩] ∧ outcome.2.store.Acyclic := by
  refine ⟨by decide, ?_⟩
  have reached := Reachable.initial.step .newVariable trivial
  have allowed : (Operation.unify (.var 0) (.array (.var 0)) 5).Allowed
      ((Operation.newVariable).perform.run {}).2 := ⟨Nat.zero_lt_one, Nat.zero_lt_one⟩
  exact (reachable_acyclic_traversable _ (reached.step _ allowed)).1

end ArrowScript
