import ArrowScript.Proofs.Inference.Trees

/-!
# Generic variables are left alone

Which variables of a constant are generic is asked anew at each of its uses, while the
variables of all other types are still being linked. This goes well since a variable that
the types of names share with types in hand is always one of the parameters around the
place: every other variable in the type of a name stays free, and is met by nothing that
comes after.

`Separate` says so of a store, and `Situation` of the state of a walk together with the
variables of all types that the walks around it still have in hand.
-/

namespace ArrowScript

namespace Store

variable {before after store : Store} {scope pending params made : List VariableId}

/-- Two groups of variables share nothing but what the parameters reach. -/
def Separate (store : Store) (scope pending params : List VariableId) : Prop :=
  ∀ id, store.Reaches scope id → store.Reaches pending id → store.Reaches params id

namespace Separate

/-- Fewer variables are separate as well. -/
theorem fewer (separate : store.Separate scope pending params) {fewer : List VariableId}
    (subset : fewer ⊆ pending) : store.Separate scope fewer params :=
  fun id inScope isPending => separate id inScope (isPending.mono subset)

/-- What a walk within the frame of one group makes belongs to that group. -/
theorem framed (separate : before.Separate scope pending params)
    (framed : Framed before after (params ++ pending) made)
    (scopeOld : ∀ id ∈ scope, id < before.cells.size) (sound : before.Sound) :
    after.Separate scope (pending ++ made) params := by
  intro id inScope isPending
  obtain ⟨name, member, occurs⟩ := inScope
  rw [← framed.refines.resolve_resolve, mem_resolve] at occurs
  obtain ⟨place, placed, occurs⟩ := occurs
  by_cases reached : before.Reaches (params ++ pending) place
  · -- the place is one of the parameters, and so is all that it has come to stand for
    have isParam : before.Reaches params place :=
      (reaches_append.mp reached).elim (fun isParam => isParam)
        (separate place ⟨name, member, placed⟩)
    obtain ⟨param, isParam, found⟩ := isParam
    refine ⟨param, isParam, ?_⟩
    rw [← framed.refines.resolve_resolve, mem_resolve]
    exact ⟨place, found, occurs⟩
  · have old : place < before.cells.size :=
      (sound.resolve_over (Ty.over_var.mpr (scopeOld name member))).lt placed
    have free := framed.untouched place old (sound.acyclic.free_of_mem_resolve placed) reached
    rw [resolve_free free, Ty.vars, List.mem_singleton] at occurs
    subst occurs
    refine absurd (framed.confined id old ?_) reached
    rw [List.append_assoc]
    exact reaches_append.mpr (.inr isPending)

end Separate

end Store

/-- The variables in the types of the names in scope. -/
def Inference.scope (inference : Inference) : List VariableId :=
  Ty.varsOf (inference.environment.map (·.2))

/-- The variables in the types of the names are variables of the store. -/
theorem Inference.WellFormed.scope_old {inference : Inference}
    (wellFormed : inference.WellFormed) (id : VariableId) (member : id ∈ inference.scope) :
    id < inference.store.cells.size := by
  obtain ⟨type, isType, occurs⟩ := Ty.mem_varsOf.mp member
  obtain ⟨entry, isEntry, rfl⟩ := List.mem_map.mp isType
  exact (wellFormed.environment entry isEntry).lt occurs

namespace Inferrer

open Store

variable {inference before after : Inference} {final : Store}
  {params pending known made others : List VariableId}

/-- What comes after a walk concerns what the walk has known or made, so the walk and all
that comes later concern only what has been in hand before. -/
theorem Walked.onward {bound : List (String × Ty)} (walked : Walked before after known made bound)
    (sound : before.store.Sound) {wanted : List VariableId}
    (old : ∀ id ∈ wanted, id < before.store.cells.size) (knows : known ⊆ wanted)
    (later : Framed after.store final others []) (fewer : others ⊆ wanted ++ made) :
    Framed before.store final wanted [] :=
  ((walked.framed.wider sound old knows).append later fewer).fewer (List.nil_subset _)

/-- A place of a walk inside functions with the given parameters, while the walks around
it have pending types in hand. -/
structure Situation (inference : Inference) (params pending : List VariableId) : Prop where
  wellFormed : inference.WellFormed
  params_eq : inference.params = params
  old : ∀ id ∈ pending, id < inference.store.cells.size
  separate : inference.store.Separate inference.scope pending params

/-- Before a program nothing is in scope. -/
theorem situation_empty : Situation {} [] [] where
  wellFormed := Inference.wellFormed_empty
  params_eq := rfl
  old := by simp
  separate := fun id inScope => absurd inScope (by simp [Reaches, Inference.scope])

namespace Situation

/-- What a walk may know is in the store. -/
theorem all_old (situation : Situation inference params pending) (id : VariableId)
    (member : id ∈ params ++ pending) : id < inference.store.cells.size := by
  rcases List.mem_append.mp member with isParam | isPending
  · exact situation.wellFormed.params_old id (situation.params_eq ▸ isParam)
  · exact situation.old id isPending

/-- The types that a walk makes are pending behind it. -/
theorem walked (situation : Situation before params pending)
    (walked : Walked before after known made []) (knows : known ⊆ params ++ pending) :
    Situation after params (pending ++ made) where
  wellFormed := walked.wellFormed situation.wellFormed
  params_eq := walked.params_eq.trans situation.params_eq
  old id member := by
    rcases List.mem_append.mp member with older | new
    · exact Nat.lt_of_lt_of_le (situation.old id older) walked.framed.refines.size_le
    · exact walked.framed.old id (List.mem_append_right _ new)
  separate := by
    have sound := situation.wellFormed.sound
    rw [Inference.scope, walked.environment]
    exact situation.separate.framed (walked.framed.wider sound situation.all_old knows)
      situation.wellFormed.scope_old sound

/-- Fewer types are pending. -/
theorem fewer (situation : Situation inference params pending) {fewer : List VariableId}
    (subset : fewer ⊆ pending) : Situation inference params fewer where
  wellFormed := situation.wellFormed
  params_eq := situation.params_eq
  old id member := situation.old id (subset member)
  separate := situation.separate.fewer subset

/-- Behind the walk over an expression its type is pending. -/
theorem visit (situation : Situation inference params pending) (expression : Expression) :
    ∃ typed type after, (inferExpression expression).run inference = ((typed, type), after) ∧
      type.Over after.store.cells.size ∧ Walked inference after params type.vars [] ∧
      Situation after params (pending ++ type.vars) := by
  obtain ⟨typed, type, after, ran, covered, walked⟩ :=
    inferExpression_walked expression inference situation.wellFormed
  rw [situation.params_eq] at walked
  exact ⟨typed, type, after, ran, covered, walked,
    situation.walked walked (List.subset_append_left _ _)⟩

/-- The type of a constant is made by a walk that knows nothing but the parameters, so
what it shares with pending types is one of them. -/
theorem declare (situation : Situation before params pending) {type : Ty} (name : String)
    (walked : Walked before after params type.vars [])
    (typeOver : type.Over after.store.cells.size) :
    Situation { after with environment := (name, type) :: after.environment } params pending := by
  have sound := situation.wellFormed.sound
  have behind := situation.walked walked (List.subset_append_left _ _)
  have paramsFramed : Framed before.store after.store (params ++ []) type.vars := by
    rw [List.append_nil]
    exact walked.framed
  have alone : before.store.Separate pending [] params := by
    rintro id - ⟨place, member, -⟩
    exact absurd member List.not_mem_nil
  have apart := alone.framed paramsFramed situation.old sound
  rw [List.nil_append] at apart
  refine ⟨⟨behind.wellFormed.sound, ?_, behind.wellFormed.undetermined⟩, behind.params_eq, ?_, ?_⟩
  · intro entry member
    rcases List.mem_cons.mp member with rfl | older
    · exact typeOver
    · exact behind.wellFormed.environment entry older
  · exact fun id member => behind.old id (List.mem_append_left _ member)
  · intro id inScope isPending
    rw [Inference.scope, List.map_cons, Ty.varsOf, reaches_append] at inScope
    rcases inScope with isNew | older
    · exact apart id isPending isNew
    · exact behind.separate id older (isPending.mono (List.subset_append_left _ _))

/-- The parameters of a function are undetermined in its body. -/
theorem enter {store : Store} (situation : Situation inference params pending)
    {parameters : List Parameter} {types : List Ty}
    (invents : Invents inference.store store (Parameter.DenoteAll parameters) types) :
    Situation
      { inference with
        store
        environment := bindEach id inference.environment parameters types
        undetermined := inference.undetermined ++ types }
      (params ++ Ty.varsOf types) pending where
  wellFormed := wellFormed_bound situation.wellFormed invents
  params_eq := by
    rw [Inference.params, Ty.varsOf_append, ← Inference.params, situation.params_eq]
  old id member := Nat.lt_of_lt_of_le (situation.old id member) invents.agrees.size_le
  separate := by
    intro place inScope isPending
    rw [Inference.scope, reaches_varsOf] at inScope
    obtain ⟨type, isType, occurs⟩ := inScope
    obtain ⟨entry, isEntry, rfl⟩ := List.mem_map.mp isType
    rw [reaches_append]
    -- a name is either one of the parameters or has been in scope before
    let isKnown (type : Ty) : Prop := type ∈ types ∨ ∃ older ∈ inference.environment, older.2 = type
    have before (older : String × Ty) (member : older ∈ inference.environment) :
        isKnown older.2 := .inr ⟨older, member, rfl⟩
    have new (type : Ty) (member : type ∈ types) : isKnown (id type) := .inl member
    rcases forall_mem_bindEach before new parameters entry isEntry with isParam |
      ⟨older, isOlder, same⟩
    · exact .inr (reaches_varsOf.mpr ⟨entry.2, isParam, occurs⟩)
    · rw [reaches_congr invents.agrees.resolve_eq] at isPending ⊢
      rw [invents.agrees.resolve_eq, ← same] at occurs
      refine .inl (situation.separate place ?_ isPending)
      exact reaches_varsOf.mpr ⟨older.2, List.mem_map_of_mem isOlder, occurs⟩

/-- A generic variable of a name stays free, and is not reached from anything in hand. -/
theorem generic (situation : Situation inference params pending) {entry : String × Ty}
    (member : entry ∈ inference.environment)
    (later : Framed inference.store final (params ++ pending) made) {id : VariableId}
    (occurs : id ∈ (inference.store.resolve entry.2).vars)
    (isGeneric : ¬ inference.store.Reaches params id) :
    final.Free id ∧ ¬ final.Reaches (params ++ pending ++ made) id := by
  have wellFormed := situation.wellFormed
  have old := (wellFormed.sound.resolve_over (wellFormed.environment _ member)).lt occurs
  have inScope : inference.store.Reaches inference.scope id :=
    reaches_varsOf.mpr ⟨entry.2, List.mem_map_of_mem member, occurs⟩
  have apart : ¬ inference.store.Reaches (params ++ pending) id := by
    rw [reaches_append, not_or]
    exact ⟨isGeneric, fun isPending => isGeneric (situation.separate id inScope isPending)⟩
  have free := wellFormed.sound.acyclic.free_of_mem_resolve occurs
  exact ⟨later.untouched id old free apart, fun reached => apart (later.confined id old reached)⟩

end Situation

end Inferrer

end ArrowScript
