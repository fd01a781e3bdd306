import ArrowScript.Proofs.Ty.Frame
import ArrowScript.Ty.Inference

/-!
# Walks of the inference

Inference is a walk over a tree that goes from one state to the next. In a well-formed
state all types that the walk has in hand are over the variables of a sound store.
`Walked` says what every walk over a part of a tree keeps: it satisfies the frame
condition, adds names to the environment at most, and never forgets a problem.

The steps of which walks are composed are each described by what they do to the state.
-/

namespace ArrowScript

/-- A state in which all types are over the variables of a sound store. -/
structure Inference.WellFormed (inference : Inference) : Prop where
  sound : inference.store.Sound
  environment : ∀ entry ∈ inference.environment, entry.2.Over inference.store.cells.size
  undetermined : ∀ term ∈ inference.undetermined, term.Over inference.store.cells.size

namespace Inference

/-- The variables in the types of the parameters around a place. -/
def params (inference : Inference) : List VariableId := Ty.varsOf inference.undetermined

/-- The initial state is well-formed. -/
theorem wellFormed_empty : WellFormed {} where
  sound := Store.sound_empty
  environment := by simp
  undetermined := by simp

/-- The variables in the types of the parameters are variables of the store. -/
theorem WellFormed.params_old {inference : Inference} (wellFormed : inference.WellFormed)
    (id : VariableId) (member : id ∈ inference.params) : id < inference.store.cells.size := by
  obtain ⟨term, member, occurs⟩ := Ty.mem_varsOf.mp member
  exact (wellFormed.undetermined term member).lt occurs

end Inference

namespace Inferrer

open Store

variable {before between after inference : Inference} {known made others further : List VariableId}
  {bound more : List (String × Ty)}

/-- What a walk keeps that knows some variables, makes others, and binds some names. -/
structure Walked (before after : Inference) (known made : List VariableId)
    (bound : List (String × Ty)) : Prop where
  framed : Framed before.store after.store known made
  environment : after.environment = bound ++ before.environment
  boundOver : ∀ entry ∈ bound, entry.2.Over after.store.cells.size
  undetermined : after.undetermined = before.undetermined
  diagnostics : before.diagnostics <+: after.diagnostics

namespace Walked

/-- A walk ends in a well-formed state. -/
theorem wellFormed (walked : Walked before after known made bound)
    (start : before.WellFormed) : after.WellFormed where
  sound := walked.framed.sound
  environment entry member := by
    rw [walked.environment] at member
    rcases List.mem_append.mp member with isBound | older
    · exact walked.boundOver entry isBound
    · exact (start.environment entry older).mono walked.framed.refines.size_le
  undetermined term member := by
    rw [walked.undetermined] at member
    exact (start.undetermined term member).mono walked.framed.refines.size_le

/-- The parameters around a walk are the same behind it. -/
theorem params_eq (walked : Walked before after known made bound) :
    after.params = before.params := by
  rw [Inference.params, walked.undetermined, Inference.params]

/-- A type of before is over the variables of after. -/
theorem covered (walked : Walked before after known made bound) {type : Ty}
    (typeOver : type.Over before.store.cells.size) : type.Over after.store.cells.size :=
  typeOver.mono walked.framed.refines.size_le

/-- A walk with no problems at its end has had none at its start. -/
theorem none_before (walked : Walked before after known made bound)
    (none : after.diagnostics = []) : before.diagnostics = [] :=
  List.prefix_nil.mp (none ▸ walked.diagnostics)

/-- A walk that knows other variables, from which all that it knew is reached. -/
theorem knowing (walked : Walked before after known made bound) (sound : before.store.Sound)
    (othersOld : ∀ id ∈ others, id < before.store.cells.size)
    (knows : ∀ id, before.store.Reaches known id → before.store.Reaches others id) :
    Walked before after others made bound :=
  { walked with framed := walked.framed.knowing sound othersOld knows }

/-- A walk that knows more. -/
theorem wider (walked : Walked before after known made bound) (sound : before.store.Sound)
    (othersOld : ∀ id ∈ others, id < before.store.cells.size) (subset : known ⊆ others) :
    Walked before after others made bound :=
  { walked with framed := walked.framed.wider sound othersOld subset }

/-- A walk of whose results fewer are used. -/
theorem fewer (walked : Walked before after known made bound) (makes : others ⊆ known ++ made) :
    Walked before after known others bound :=
  { walked with framed := walked.framed.fewer makes }

/-- Two walks, of which the second knows no more than what the first has known and made. -/
theorem append (first : Walked before between known made bound)
    (second : Walked between after others further more) (knows : others ⊆ known ++ made) :
    Walked before after known (made ++ further) (more ++ bound) where
  framed := first.framed.append second.framed knows
  environment := by rw [second.environment, first.environment, List.append_assoc]
  boundOver entry member := by
    rcases List.mem_append.mp member with later | earlier
    · exact second.boundOver entry later
    · exact second.covered (first.boundOver entry earlier)
  undetermined := second.undetermined.trans first.undetermined
  diagnostics := first.diagnostics.trans second.diagnostics

end Walked

/-! ## Steps -/

/-- Two walks that follow each other. -/
theorem run_bind {α β : Type} (first : Inferrer α) (next : α → Inferrer β)
    (inference : Inference) :
    (first >>= next).run inference = (next (first.run inference).1).run (first.run inference).2 :=
  rfl

/-- A walk that only returns a value. -/
theorem run_pure {α : Type} (value : α) (inference : Inference) :
    (pure value : Inferrer α).run inference = (value, inference) := rfl

/-- A step on the store. -/
theorem run_solve {α : Type} (solver : Solver α) (inference : Inference) :
    (solve solver).run inference =
      ((solver.run inference.store).1,
        { inference with store := (solver.run inference.store).2 }) := rfl

/-- A step that changes the store within a frame is a walk. -/
theorem walked_store {store : Store} (framed : Framed before.store store known made) :
    Walked before { before with store } known made [] where
  framed := framed
  environment := rfl
  boundOver := by simp
  undetermined := rfl
  diagnostics := List.prefix_refl _

/-- Reporting changes nothing but the problems. -/
theorem report_walked (sound : inference.store.Sound) (problems : List Problem) (offset : Int) :
    Walked inference ((report problems offset).run inference).2 [] [] [] where
  framed := .of_agrees (.refl _) sound
  environment := rfl
  boundOver := by simp
  undetermined := rfl
  diagnostics := List.prefix_append _ _

/-- A fresh variable has not been there before. Nothing else changes. -/
theorem fresh_spec (sound : inference.store.Sound) :
    ∃ store, (solve Solver.fresh).run inference =
        (inference.store.cells.size, { inference with store }) ∧
      Agrees inference.store store ∧ store.cells.size = inference.store.cells.size + 1 ∧
      Walked inference { inference with store } [] [inference.store.cells.size] [] := by
  rcases added : Solver.fresh.run inference.store with ⟨id, store⟩
  obtain ⟨agrees, rfl, size⟩ := Solver.fresh_agrees sound added
  exact ⟨store, by rw [run_solve, added], agrees, size, walked_store (framed_fresh sound added)⟩

/-- The type that may become anything is a fresh variable. -/
theorem freshVariable_spec (sound : inference.store.Sound) :
    ∃ store, freshVariable.run inference =
        (.var inference.store.cells.size, { inference with store }) ∧
      Agrees inference.store store ∧ store.cells.size = inference.store.cells.size + 1 ∧
      Walked inference { inference with store } [] [inference.store.cells.size] [] := by
  obtain ⟨store, ran, agrees, size, walked⟩ := fresh_spec sound
  refine ⟨store, ?_, agrees, size, walked⟩
  rw [freshVariable, run_bind, ran, run_pure]

/-- Unification changes the store, and reports its conflicts at the given offset. -/
theorem unify_spec (sound : inference.store.Sound) {left right : Ty}
    (leftOver : left.Over inference.store.cells.size)
    (rightOver : right.Over inference.store.cells.size) (offset : Int) :
    ∃ problems after, (unify left right offset).run inference = (problems.isEmpty, after) ∧
      Solver.Unified inference.store [(left, right)] problems after.store ∧
      after.diagnostics = inference.diagnostics ++ problems.map (⟨·, offset⟩) ∧
      Walked inference after (left.vars ++ right.vars) [] [] := by
  have unified := Solver.unify_unified sound leftOver rightOver
  refine ⟨_, _, rfl, unified, rfl, ?_⟩
  exact
    { framed := framed_unified sound leftOver rightOver unified
      environment := rfl
      boundOver := by simp
      undetermined := rfl
      diagnostics := List.prefix_append _ _ }

/-- An instance of a type is made of fresh variables and those of the parameters. -/
theorem instantiate_spec (wellFormed : inference.WellFormed) {type : Ty}
    (covered : type.Over inference.store.cells.size) :
    ∃ image store replacement, (instantiate type).run inference =
        (image, { inference with store }) ∧
      Solver.Instantiates inference.store store inference.undetermined type image replacement ∧
      image.Over store.cells.size ∧
      Walked inference { inference with store } inference.params image.vars [] := by
  obtain ⟨replacement, instantiates⟩ :=
    Solver.freshInstance_spec wellFormed.sound wellFormed.undetermined covered
  exact ⟨_, _, replacement, rfl, instantiates,
    over_instantiates wellFormed.sound covered instantiates,
    walked_store
      (framed_instantiates wellFormed.sound wellFormed.undetermined covered instantiates)⟩

/-- Following a chain changes only its length. -/
theorem compress_spec (sound : inference.store.Sound) {type : Ty}
    (covered : type.Over inference.store.cells.size) :
    ∃ reached store, (solve (Solver.compress type)).run inference =
        (reached, { inference with store }) ∧
      Agrees inference.store store ∧ store.cells.size = inference.store.cells.size ∧
      inference.store.resolve reached = inference.store.resolve type ∧
      reached.Over inference.store.cells.size ∧
      (∀ id, reached = .var id → inference.store.Free id) ∧
      Walked inference { inference with store } [] [] [] := by
  rcases compressed : (Solver.compress type).run inference.store with ⟨reached, store⟩
  obtain ⟨agrees, size, same, free⟩ := Solver.resolve_compressed sound compressed
  have ends := Solver.compress_ends sound.acyclic type
  rw [compressed] at ends
  refine ⟨reached, store, ?_, agrees, size, same, ends.covered sound covered, free, ?_⟩
  · rw [run_solve, compressed]
  · exact walked_store (.of_agrees agrees sound)

/-- The end of a chain is reached from where the chain begins. -/
theorem follow_spec (sound : inference.store.Sound) {type : Ty}
    (covered : type.Over inference.store.cells.size) :
    ∃ reached store, (solve (Solver.compress type)).run inference =
        (reached, { inference with store }) ∧
      Agrees inference.store store ∧
      inference.store.resolve reached = inference.store.resolve type ∧
      reached.Over store.cells.size ∧
      Walked inference { inference with store } type.vars reached.vars [] := by
  obtain ⟨reached, store, ran, agrees, -, same, reachedOver, -, walked⟩ :=
    compress_spec sound covered
  have reachedOver := walked.covered reachedOver
  have wider := walked.wider sound (fun id => covered.lt) (List.nil_subset _)
  refine ⟨reached, store, ran, agrees, same, reachedOver,
    { wider with framed := { wider.framed with old := ?_, confined := ?_ } }⟩
  · intro id member
    exact (List.mem_append.mp member).elim (walked.covered covered).lt reachedOver.lt
  · intro id _ reaches
    rw [reaches_congr agrees.resolve_eq, reaches_append] at reaches
    rcases reaches with inType | inReached
    · exact inType
    · rw [reaches_vars, same] at inReached
      exact reaches_vars.mpr inReached

/-- Printing changes only the length of chains. -/
theorem print_spec (sound : inference.store.Sound) {type : Ty}
    (covered : type.Over inference.store.cells.size) :
    ∃ text store, (solve (Solver.print type)).run inference = (text, { inference with store }) ∧
      Agrees inference.store store ∧ Walked inference { inference with store } [] [] [] := by
  obtain ⟨store, -, ran, agrees, -⟩ := Solver.print_spec sound covered
  refine ⟨(inference.store.resolve type).render store.nameOf, store, ?_, agrees,
    walked_store (.of_agrees agrees sound)⟩
  rw [run_solve, ran]

/-- A name that has a type is used with an instance of it, and any other with any type. -/
theorem lookup_eq (name : String) (inference : Inference) :
    (lookup name).run inference =
      match inference.environment.lookup name with
      | none => freshVariable.run inference
      | some type => (instantiate type).run inference := by
  change (match inference.environment.lookup name with | none => _ | some _ => _ :
    Inferrer Ty).run inference = _
  cases inference.environment.lookup name <;> rfl

/-- The type under which a name is found is one of the environment. -/
theorem mem_of_lookup {α : Type} {entries : List (String × α)} {name : String} {value : α}
    (found : entries.lookup name = some value) : (name, value) ∈ entries := by
  induction entries with
  | nil => simp at found
  | cons first rest inductionHypothesis =>
    obtain ⟨key, entry⟩ := first
    rw [List.lookup_cons] at found
    cases same : name == key with
    | true =>
      rw [same] at found
      cases found
      rw [beq_iff_eq.mp same]
      exact List.mem_cons_self
    | false =>
      rw [same] at found
      exact List.mem_cons_of_mem _ (inductionHypothesis found)

/-- Looking up a name is a walk. -/
theorem lookup_walked (wellFormed : inference.WellFormed) (name : String) :
    ∃ type after, (lookup name).run inference = (type, after) ∧
      type.Over after.store.cells.size ∧
      Walked inference after inference.params type.vars [] := by
  rw [lookup_eq]
  cases found : inference.environment.lookup name with
  | none =>
    obtain ⟨store, ran, -, size, added⟩ := freshVariable_spec wellFormed.sound
    refine ⟨_, _, ran, ?_, added.wider wellFormed.sound wellFormed.params_old (List.nil_subset _)⟩
    rw [Ty.over_var, size]
    exact Nat.lt_succ_self _
  | some type =>
    have covered := wellFormed.environment _ (mem_of_lookup found)
    obtain ⟨image, store, _, ran, -, imageOver, walked⟩ := instantiate_spec wellFormed covered
    exact ⟨image, _, ran, imageOver, walked⟩

end Inferrer

end ArrowScript
