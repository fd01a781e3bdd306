import ArrowScript.Problem
import ArrowScript.Proofs.Ty.Links

/-!
# Solutions of a store

A substitution models a store when it gives every linked variable what it gives the
term of its link, so a term and what it stands for are the same to it. Resolution in a
sound store is the most general substitution that models it.

`Unified` says what unifying pairs of terms leaves behind: without a problem both terms
of each pair stand for the same, every substitution that models the store and equates
the pairs still models it, and nothing but the variables of the pairs is concerned.
-/

namespace ArrowScript

namespace Store

variable {store before between after : Store} {model : VariableId → Ty}

/-- A substitution to which a term is the same as what it stands for. -/
def Models (store : Store) (model : VariableId → Ty) : Prop :=
  ∀ term, (store.resolve term).substitute model = term.substitute model

/-- What the variables of a store stand for. -/
def solution (store : Store) (id : VariableId) : Ty := store.resolve (.var id)

/-- Resolution is substitution of what the variables stand for. -/
theorem substitute_solution (store : Store) (term : Ty) :
    term.substitute store.solution = store.resolve term := rfl

/-- Resolution models the store. -/
theorem Acyclic.models (acyclic : store.Acyclic) : store.Models store.solution :=
  acyclic.resolve_resolve

/-- Stores in which all terms stand for the same have the same models. -/
theorem Agrees.models_iff (agrees : Agrees before after) :
    after.Models model ↔ before.Models model := by
  simp only [Models, agrees.resolve_eq]

/-- Two terms that stand for the same are the same to a model. -/
theorem Models.eq_of_resolve_eq (models : store.Models model) {first second : Ty}
    (same : store.resolve first = store.resolve second) :
    first.substitute model = second.substitute model := by
  rw [← models first, ← models second, same]

/-- Every model of a store gives a variable something that occurs where the variable
occurs. -/
theorem Models.mem_vars (models : store.Models model) {term : Ty}
    {id other : VariableId} (occurs : id ∈ (store.resolve term).vars)
    (found : other ∈ (model id).vars) :
    other ∈ (term.substitute model).vars := by
  rw [← models term, Ty.mem_vars_substitute]
  exact ⟨id, occurs, found⟩

/-- A model stays one when a free variable is linked to a term that the model equates with
it. -/
theorem Models.setLink (models : store.Models model) (acyclic : store.Acyclic)
    {id : VariableId} {term : Ty} (inside : id < store.cells.size) (free : store.Free id)
    (absent : id ∉ (store.resolve term).vars)
    (equal : model id = term.substitute model) :
    (store.setLink id term).Models model := by
  intro other
  rw [acyclic.resolve_setLink inside free absent, Ty.substitute_substitute]
  refine (Ty.substitute_congr fun place _ => ?_).trans (models other)
  by_cases here : place = id
  · rw [Ty.binding, if_pos here, here, models term, equal]
  · rw [Ty.binding, if_neg here, Ty.substitute]

/-! ## Refinement -/

/-- A later store in which everything stands for what it stood for, made more specific.
There may be new variables. -/
structure Refines (before after : Store) : Prop where
  size_le : before.cells.size ≤ after.cells.size
  sound : before.Sound → after.Sound
  models : before.Models after.solution

namespace Refines

/-- Nothing is more specific. -/
theorem of_agrees (agrees : Agrees before after) (sound : before.Sound) :
    Refines before after where
  size_le := agrees.size_le
  sound := agrees.sound
  models := agrees.models_iff.mp (agrees.sound sound).acyclic.models

/-- What a term stood for stands for what the term stands for now. -/
theorem resolve_resolve (refines : Refines before after) (term : Ty) :
    after.resolve (before.resolve term) = after.resolve term :=
  refines.models term

/-- Terms that stood for the same still do. -/
theorem resolve_eq (refines : Refines before after) {first second : Ty}
    (same : before.resolve first = before.resolve second) :
    after.resolve first = after.resolve second :=
  refines.models.eq_of_resolve_eq same

/-- Stores can be made more specific again and again. -/
theorem trans (first : Refines before between) (second : Refines between after) :
    Refines before after where
  size_le := Nat.le_trans first.size_le second.size_le
  sound := second.sound ∘ first.sound
  models := by
    intro term
    simp only [substitute_solution]
    calc after.resolve (before.resolve term)
        = after.resolve (between.resolve (before.resolve term)) :=
          (second.resolve_resolve _).symm
      _ = after.resolve (between.resolve term) := by rw [first.resolve_resolve]
      _ = after.resolve term := second.resolve_resolve term

/-- What stands inside the resolution of a term does so afterwards. -/
theorem inside (refines : Refines before after) {inner outer : Ty}
    (inside : Ty.Inside (before.resolve inner) (before.resolve outer)) :
    Ty.Inside (after.resolve inner) (after.resolve outer) := by
  have kept := inside.substitute after.solution
  rwa [substitute_solution, substitute_solution, refines.resolve_resolve,
    refines.resolve_resolve] at kept

/-- Linking a free variable to a term in which it does not occur refines a store. -/
theorem setLink (sound : before.Sound) {id : VariableId} {term : Ty}
    (inside : id < before.cells.size) (free : before.Free id)
    (covered : term.Over before.cells.size) (absent : id ∉ (before.resolve term).vars) :
    Refines before (before.setLink id term) where
  size_le := by rw [size_setLink]
  sound _ := sound.setLink free covered absent
  models := by
    intro other
    simp only [substitute_solution]
    rw [sound.acyclic.resolve_setLink inside free absent,
      sound.acyclic.resolve_setLink inside free absent, sound.acyclic.resolve_resolve]

end Refines

end Store

namespace Solver

open Store

variable {store before between after : Store} {pairs others : List (Ty × Ty)}
  {problems further : List Problem}

/-- A substitution that makes both terms of each pair equal. -/
def Equates (model : VariableId → Ty) (pairs : List (Ty × Ty)) : Prop :=
  ∀ pair ∈ pairs, pair.1.substitute model = pair.2.substitute model

/-- The variables that occur in what the terms of some pairs stand for. -/
def Concerns (store : Store) (pairs : List (Ty × Ty)) (id : VariableId) : Prop :=
  ∃ pair ∈ pairs, id ∈ (store.resolve pair.1).vars ∨ id ∈ (store.resolve pair.2).vars

/-- What unifying some pairs leaves behind. -/
structure Unified (before : Store) (pairs : List (Ty × Ty)) (problems : List Problem)
    (after : Store) : Prop where
  size_eq : after.cells.size = before.cells.size
  refines : Refines before after
  solved : problems = [] → Equates after.solution pairs
  general : ∀ model, before.Models model → Equates model pairs →
    problems = [] ∧ after.Models model
  untouched : ∀ id, before.Free id → ¬ Concerns before pairs id → after.Free id
  confined : ∀ term, ∀ id ∈ (after.resolve term).vars,
    id ∈ (before.resolve term).vars ∨ Concerns before pairs id

/-- Equations are about each pair. -/
@[simp]
theorem equates_cons {model : VariableId → Ty} {left right : Ty} :
    Equates model ((left, right) :: pairs) ↔
      left.substitute model = right.substitute model ∧ Equates model pairs := by
  simp [Equates]

/-- Equations in two lists. -/
@[simp]
theorem equates_append {model : VariableId → Ty} :
    Equates model (pairs ++ others) ↔ Equates model pairs ∧ Equates model others := by
  simp [Equates, or_imp, forall_and]

/-- Equations between the terms of two lists of the same length. -/
theorem equates_zip {left right : List Ty} (arity : left.length = right.length)
    {model : VariableId → Ty} :
    Equates model (left.zip right) ↔
      left.map (·.substitute model) = right.map (·.substitute model) := by
  induction left generalizing right with
  | nil =>
    obtain rfl := List.length_eq_zero_iff.mp arity.symm
    simp [Equates]
  | cons first others inductionHypothesis =>
    obtain ⟨second, more, rfl⟩ := List.exists_cons_of_length_eq_add_one arity.symm
    have arity : others.length = more.length := by simpa using arity
    simp [inductionHypothesis arity]

/-- Two lists of pairs concern what either of them concerns. -/
@[simp]
theorem concerns_append {id : VariableId} :
    Concerns before (pairs ++ others) id ↔
      Concerns before pairs id ∨ Concerns before others id := by
  simp [Concerns, or_and_right, exists_or]

namespace Unified

/-- Nothing has to be unified. -/
theorem nil (sound : store.Sound) : Unified store [] [] store where
  size_eq := rfl
  refines := .of_agrees (.refl store) sound
  solved _ := by simp [Equates]
  general _ models _ := ⟨rfl, models⟩
  untouched _ free _ := free
  confined _ _ occurs := .inl occurs

/-- Some pairs are unified, and then others. -/
theorem append (first : Unified before pairs problems between)
    (second : Unified between others further after) :
    Unified before (pairs ++ others) (problems ++ further) after where
  size_eq := second.size_eq.trans first.size_eq
  refines := first.refines.trans second.refines
  solved none := by
    obtain ⟨noneHere, noneFurther⟩ := List.append_eq_nil_iff.mp none
    refine equates_append.mpr ⟨fun pair member => ?_, second.solved noneFurther⟩
    exact second.refines.resolve_eq (first.solved noneHere pair member)
  general model models equates := by
    obtain ⟨here, there⟩ := equates_append.mp equates
    obtain ⟨noneHere, modelsBetween⟩ := first.general model models here
    obtain ⟨noneThere, modelsAfter⟩ := second.general model modelsBetween there
    exact ⟨by simp [noneHere, noneThere], modelsAfter⟩
  untouched id free apart := by
    rw [concerns_append, not_or] at apart
    refine second.untouched id (first.untouched id free apart.1) ?_
    rintro ⟨pair, member, occurs | occurs⟩
    · exact (first.confined _ id occurs).elim
        (fun found => apart.2 ⟨pair, member, .inl found⟩) apart.1
    · exact (first.confined _ id occurs).elim
        (fun found => apart.2 ⟨pair, member, .inr found⟩) apart.1
  confined term id occurs := by
    rw [concerns_append]
    rcases second.confined term id occurs with found | ⟨pair, member, found⟩
    · exact (first.confined term id found).imp_right .inl
    · rcases found with found | found
      · exact .inr ((first.confined _ id found).symm.imp_right fun found =>
          ⟨pair, member, .inl found⟩)
      · exact .inr ((first.confined _ id found).symm.imp_right fun found =>
          ⟨pair, member, .inr found⟩)

/-- What changes only the length of chains can come first. -/
theorem after_agrees (agrees : Agrees before between)
    (size : between.cells.size = before.cells.size) (sound : before.Sound)
    (unified : Unified between pairs problems after) : Unified before pairs problems after where
  size_eq := unified.size_eq.trans size
  refines := (Refines.of_agrees agrees sound).trans unified.refines
  solved := unified.solved
  general model models := unified.general model (agrees.models_iff.mpr models)
  untouched id free apart := by
    refine unified.untouched id ((agrees.free_iff id).mpr free) ?_
    simpa only [Concerns, agrees.resolve_eq] using apart
  confined := by simpa only [Concerns, agrees.resolve_eq] using unified.confined

/-- Pairs can be replaced by others that have the same solutions and concern no less. -/
theorem congr (unified : Unified before pairs problems after)
    (equates : ∀ model, before.Models model → (Equates model pairs ↔ Equates model others))
    (concerns : ∀ id, Concerns before pairs id → Concerns before others id) :
    Unified before others problems after where
  size_eq := unified.size_eq
  refines := unified.refines
  solved none := (equates _ unified.refines.models).mp (unified.solved none)
  general model models solved := unified.general model models ((equates model models).mpr solved)
  untouched id free apart := unified.untouched id free fun concerned =>
    apart (concerns id concerned)
  confined term id occurs := (unified.confined term id occurs).imp_right (concerns id)

/-- It does not matter which term of a pair stands first. -/
theorem swap {left right : Ty} (unified : Unified before [(left, right)] problems after) :
    Unified before [(right, left)] problems after :=
  unified.congr (fun model _ => by simp [Equates, eq_comm]) fun id => by
    simp [Concerns, or_comm]

/-- A conflict between pairs that have no solution leaves them as they are. -/
theorem conflict (agrees : Agrees before after) (size : after.cells.size = before.cells.size)
    (sound : before.Sound) (reported : problems ≠ [])
    (unsolvable : ∀ model, before.Models model → ¬ Equates model pairs) :
    Unified before pairs problems after where
  size_eq := size
  refines := .of_agrees agrees sound
  solved none := absurd none reported
  general model models equates := absurd equates (unsolvable model models)
  untouched id free _ := (agrees.free_iff id).mpr free
  confined term id occurs := .inl (by rwa [agrees.resolve_eq] at occurs)

/-- A free variable is unified with a term in which it does not occur by linking it. -/
theorem setLink (sound : store.Sound) {id : VariableId} {term : Ty}
    (inside : id < store.cells.size) (free : store.Free id)
    (covered : term.Over store.cells.size) (absent : id ∉ (store.resolve term).vars) :
    Unified store [(.var id, term)] [] (store.setLink id term) where
  size_eq := size_setLink store id term
  refines := .setLink sound inside free covered absent
  solved _ := by
    intro pair member
    obtain rfl := List.mem_singleton.mp member
    simp only [substitute_solution]
    rw [sound.acyclic.resolve_setLink inside free absent,
      sound.acyclic.resolve_setLink inside free absent, resolve_free free,
      Ty.substitute_binding_of_notMem _ absent]
    exact if_pos rfl
  general model models equates :=
    ⟨rfl, models.setLink sound.acyclic inside free absent (by simpa [Equates] using equates)⟩
  untouched other stillFree apart := by
    rw [Free, link?_setLink]
    split
    next here =>
      refine absurd ⟨_, List.mem_singleton.mpr rfl, .inl ?_⟩ apart
      simp [here.1, resolve_free free]
    next => exact stillFree
  confined other place occurs := by
    rw [sound.acyclic.resolve_setLink inside free absent, Ty.mem_vars_substitute] at occurs
    obtain ⟨middle, found, occurs⟩ := occurs
    by_cases here : middle = id
    · rw [Ty.binding, if_pos here] at occurs
      exact .inr ⟨_, List.mem_singleton.mpr rfl, .inr occurs⟩
    · rw [Ty.binding, if_neg here, Ty.vars, List.mem_singleton] at occurs
      exact .inl (occurs ▸ found)

end Unified

end Solver

end ArrowScript
