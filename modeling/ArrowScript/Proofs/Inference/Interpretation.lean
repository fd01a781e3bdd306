import ArrowScript.Proofs.Inference.Separation
import ArrowScript.Proofs.Scope.Propriety

/-!
# Places at the end of a run

Soundness is read off the store at the end of a run. The walks before it are followed from
the back: what is known about the end of a walk is that everything later stays within the
frame of the parameters and of the types in hand. So the variables that were generic at a
use are still free at the end, and what the use was given is an instance of the type that
the name has at the end.
-/

namespace ArrowScript

namespace Inferrer

open Store

variable {inference before after : Inference} {final : Store} {context : Context}
  {params pending known made : List VariableId} {names : List String} {around : List Ty}

/-- What a name of a type stands for at the end of a run: its scheme has the type that is
found then, and is only fixed in variables of the parameters. -/
def StandsFor (final : Store) (params : List VariableId) (type : Ty) (scheme : Scheme) : Prop :=
  scheme.type = final.resolve type ∧ ∀ id ∈ scheme.fixed, final.Reaches params id

/-- A place of a walk together with what it looks like at the end of the run. -/
structure Interpretation (final : Store) (inference : Inference)
    (params pending : List VariableId) (names : List String) (context : Context)
    (around : List Ty) : Prop where
  situation : Situation inference params pending
  inScope : names ⊆ inference.environment.map (·.1)
  entries : Context.Describes (StandsFor final params) inference.environment context
  around_eq : inference.undetermined.map final.resolve = around

/-- What a place looks like does not change while a walk makes further types. -/
theorem Interpretation.walked
    (interpretation : Interpretation final before params pending names context around)
    (walked : Walked before after known made []) (knows : known ⊆ params ++ pending) :
    Interpretation final after params (pending ++ made) names context around where
  situation := interpretation.situation.walked walked knows
  inScope := by
    rw [walked.environment]
    exact interpretation.inScope
  entries := by
    rw [walked.environment]
    exact interpretation.entries
  around_eq := by
    rw [walked.undetermined]
    exact interpretation.around_eq

/-- What a place looks like does not depend on which types are pending. -/
theorem Interpretation.fewer
    (interpretation : Interpretation final inference params pending names context around)
    {fewer : List VariableId} (subset : fewer ⊆ pending) :
    Interpretation final inference params fewer names context around :=
  { interpretation with situation := interpretation.situation.fewer subset }

/-- All parameters are bound. -/
theorem names_bindEach {α : Type} {entry : Ty → α} {bound : List (String × α)}
    {parameters : List Parameter} {types : List Ty}
    (denote : Parameter.DenoteAll parameters types) :
    parameters.map (·.name) ++ bound.map (·.1) ⊆
      (bindEach entry bound parameters types).map (·.1) := by
  induction parameters generalizing bound types with
  | nil => exact List.Subset.refl _
  | cons param rest inductionHypothesis =>
    cases denote with
    | @cons _ _ type _ _ restDenote =>
      have bindsRest : rest.map (·.name) ++ ((param.name, entry type) :: bound).map (·.1) ⊆ _ :=
        inductionHypothesis restDenote
      refine fun name member => bindsRest ?_
      simp only [List.map_cons, List.cons_append, List.mem_cons, List.mem_append] at member ⊢
      tauto

/-- Inside a function its parameters are in scope with their types. -/
theorem Interpretation.enter {store : Store}
    (interpretation : Interpretation final inference params pending names context around)
    {parameters : List Parameter} {types : List Ty}
    (invents : Invents inference.store store (Parameter.DenoteAll parameters) types) :
    Interpretation final
      { inference with
        store
        environment := bindEach id inference.environment parameters types
        undetermined := inference.undetermined ++ types }
      (params ++ Ty.varsOf types) pending (parameters.map (·.name) ++ names)
      (context.withParameters parameters (types.map final.resolve))
      (around ++ types.map final.resolve) where
  situation := interpretation.situation.enter invents
  inScope := by
    refine List.Subset.trans ?_ (names_bindEach invents.allowed)
    exact List.append_subset.mpr ⟨List.subset_append_left _ _,
      List.subset_append_of_subset_right _ interpretation.inScope⟩
  entries := by
    have older : Context.Describes (StandsFor final (params ++ Ty.varsOf types))
        inference.environment context := by
      refine interpretation.entries.imp fun entry _ scheme standsFor => ⟨standsFor.1, ?_⟩
      exact fun id member => (standsFor.2 id member).mono (List.subset_append_left _ _)
    refine older.bindEach parameters final.resolve fun type isParam => ⟨rfl, fun id occurs => ?_⟩
    exact reaches_append.mpr (.inr (reaches_varsOf.mpr ⟨type, isParam, occurs⟩))
  around_eq := by rw [List.map_append, interpretation.around_eq]

/-- Behind a constant it is in scope, with the scheme of the type that it comes to have. -/
theorem Interpretation.declare
    (interpretation : Interpretation final before params pending names context around)
    {type : Ty} (name : String) (walked : Walked before after params type.vars [])
    (typeOver : type.Over after.store.cells.size) :
    Interpretation final { after with environment := (name, type) :: after.environment } params
      pending (name :: names)
      ((name, .generalised around (final.resolve type)) :: context) around where
  situation := interpretation.situation.declare name walked typeOver
  inScope := by
    rw [walked.environment]
    exact List.cons_subset_cons _ interpretation.inScope
  entries := by
    rw [walked.environment]
    refine interpretation.entries.bind name ⟨rfl, fun id member => ?_⟩
    · rw [Scheme.generalised, ← interpretation.around_eq] at member
      obtain ⟨_, isAround, occurs⟩ := Ty.mem_varsOf.mp member
      obtain ⟨param, isParam, rfl⟩ := List.mem_map.mp isAround
      rw [← interpretation.situation.params_eq]
      exact reaches_varsOf.mpr ⟨param, isParam, occurs⟩
  around_eq := by
    rw [walked.undetermined]
    exact interpretation.around_eq

open Classical in
/-- What a use of a name is given is an instance of the scheme that the name has at the end
of the run. -/
theorem lookup_instance (situation : Situation inference params pending) {name : String}
    {type image : Ty} (bound : inference.environment.lookup name = some type)
    (ran : (lookup name).run inference = (image, after))
    (later : Framed after.store final (params ++ (pending ++ image.vars)) [])
    {scheme : Scheme} (standsFor : StandsFor final params type scheme) :
    scheme.Instance (final.resolve image) := by
  have wellFormed := situation.wellFormed
  have typeOver := wellFormed.environment _ (mem_of_lookup bound)
  obtain ⟨_, store, replacement, instantiateRan, instantiates, -, walked⟩ :=
    instantiate_spec wellFormed typeOver
  rw [lookup_eq, bound] at ran
  obtain ⟨rfl, rfl⟩ := Prod.mk.inj (instantiateRan.symm.trans ran)
  rw [situation.params_eq] at walked
  have whole : Framed inference.store final (params ++ pending) [] :=
    walked.onward wellFormed.sound situation.all_old (List.subset_append_left _ _) later
      (by simp)
  let replaced (id : VariableId) : Ty :=
    if final.Reaches params id then .var id else final.resolve (replacement id)
  refine ⟨replaced, fun id member => if_pos (standsFor.2 id member), ?_⟩
  have resolved : final.resolve type =
      (inference.store.resolve type).substitute final.solution :=
    (whole.refines.resolve_resolve type).symm
  rw [standsFor.1, resolved, instantiates.image_eq, ← substitute_solution,
    Ty.substitute_substitute, Ty.substitute_substitute]
  refine Ty.substitute_congr fun id occurs => ?_
  by_cases isFixed : inference.store.Reaches params id
  · -- all that a variable of the parameters has come to stand for is kept
    have isUndetermined : inference.store.Reaches inference.params id :=
      situation.params_eq ▸ isFixed
    rw [instantiates.fixed id isUndetermined]
    have identity : (final.solution id).substitute replaced =
        (final.solution id).substitute .var := by
      refine Ty.substitute_congr fun place found => if_pos ?_
      obtain ⟨param, isParam, reached⟩ := isFixed
      refine ⟨param, isParam, ?_⟩
      rw [← whole.refines.resolve_resolve, mem_resolve]
      exact ⟨id, reached, found⟩
    rw [identity, Ty.substitute_var]
    rfl
  · obtain ⟨free, apart⟩ := situation.generic (mem_of_lookup bound) whole occurs isFixed
    have notParam : ¬ final.Reaches params id := fun reached =>
      apart (reached.mono (by simp))
    have alone : final.solution id = .var id := resolve_free free
    rw [alone, Ty.substitute, substitute_solution]
    exact (if_neg notParam).symm

end Inferrer

end ArrowScript
