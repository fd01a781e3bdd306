import ArrowScript.Proofs.Inference.Separation

/-!
# Places seen through a typing

Completeness follows a given typing of a program. The induction carries a model of the
store: a substitution to which all types in hand are those of the typing. A name of the
environment realizes its scheme when every type with which the scheme can be used is
reached by choosing other types for the variables of the name, the parameters excepted.
Since uses are instances with fresh variables for exactly the variables that are left to
choose, the model extends from walk to walk.
-/

namespace ArrowScript

namespace Inferrer

open Store

variable {inference before after : Inference} {context : Context}
  {params pending known made : List VariableId} {around : List Ty}
  {model extended : VariableId → Ty}

/-- A type realizes a scheme when every type with which the scheme can be used is the type
for some choice of its variables, where the parameters are given by the model. -/
def Realizes (store : Store) (params : List VariableId) (model : VariableId → Ty) (type : Ty)
    (scheme : Scheme) : Prop :=
  ∀ used, scheme.Instance used → ∃ chosen : VariableId → Ty,
    (∀ id, store.Reaches params id → chosen id = model id) ∧
      (store.resolve type).substitute chosen = used

/-- A place of a walk together with a model to which it looks like a given typing. -/
structure Realization (model : VariableId → Ty) (inference : Inference)
    (params pending : List VariableId) (context : Context) (around : List Ty) : Prop where
  situation : Situation inference params pending
  models : inference.store.Models model
  entries : Context.Describes (Realizes inference.store params model) inference.environment
    context
  around_eq : inference.undetermined.map (·.substitute model) = around

open Classical in
/-- Names still realize their schemes after a walk, when the model has been extended. -/
theorem Realization.walked (realization : Realization model before params pending context around)
    (walked : Walked before after known made []) (knows : known ⊆ params ++ pending)
    (old : ∀ id < before.store.cells.size, extended id = model id)
    (models : after.store.Models extended) :
    Realization extended after params (pending ++ made) context around := by
  have situation := realization.situation
  have wellFormed := situation.wellFormed
  have framed := walked.framed.wider wellFormed.sound situation.all_old knows
  refine ⟨situation.walked walked knows, models, ?_, ?_⟩
  · rw [walked.environment, List.nil_append]
    refine realization.entries.imp fun entry member scheme realizes used isInstance => ?_
    obtain ⟨chosen, given, same⟩ := realizes used isInstance
    let further (id : VariableId) : Ty :=
      if after.store.Reaches params id then extended id else chosen id
    refine ⟨further, fun id reached => if_pos reached, ?_⟩
    rw [← framed.refines.resolve_resolve, ← same, ← substitute_solution,
      Ty.substitute_substitute]
    refine Ty.substitute_congr fun id occurs => ?_
    have inside : id < before.store.cells.size :=
      (wellFormed.sound.resolve_over (wellFormed.environment entry member)).lt occurs
    by_cases isFixed : before.store.Reaches params id
    · -- all that a variable of the parameters has come to stand for is given by the model
      have agrees : (after.store.solution id).substitute further =
          (after.store.solution id).substitute extended := by
        refine Ty.substitute_congr fun place found => if_pos ?_
        obtain ⟨param, isParam, reached⟩ := isFixed
        refine ⟨param, isParam, ?_⟩
        rw [← framed.refines.resolve_resolve, mem_resolve]
        exact ⟨id, reached, found⟩
      calc (after.store.solution id).substitute further
          = (after.store.solution id).substitute extended := agrees
        _ = extended id := models (.var id)
        _ = model id := old id inside
        _ = chosen id := (given id isFixed).symm
    · obtain ⟨free, apart⟩ := situation.generic member framed occurs isFixed
      have notParam : ¬ after.store.Reaches params id := fun reached =>
        apart (reached.mono (by simp))
      have alone : after.store.solution id = .var id := resolve_free free
      rw [alone, Ty.substitute]
      exact if_neg notParam
  · rw [walked.undetermined, ← realization.around_eq]
    exact List.map_congr_left fun type member =>
      (wellFormed.undetermined type member).substitute_eq old

/-- What a place looks like does not depend on which types are pending. -/
theorem Realization.fewer
    (realization : Realization model inference params pending context around)
    {fewer : List VariableId} (subset : fewer ⊆ pending) :
    Realization model inference params fewer context around :=
  { realization with situation := realization.situation.fewer subset }

open Classical in
/-- The parameters of a function have the types that the model gives them. -/
theorem Realization.enter {store : Store}
    (realization : Realization model inference params pending context around)
    {parameters : List Parameter} {types : List Ty}
    (invents : Invents inference.store store (Parameter.DenoteAll parameters) types)
    (old : ∀ id < inference.store.cells.size, extended id = model id) :
    Realization extended
      { inference with
        store
        environment := bindEach id inference.environment parameters types
        undetermined := inference.undetermined ++ types }
      (params ++ Ty.varsOf types) pending
      (context.withParameters parameters (types.map (·.substitute extended)))
      (around ++ types.map (·.substitute extended)) := by
  have situation := realization.situation
  have wellFormed := situation.wellFormed
  have framed := invents.framed wellFormed.sound
  have models := realization.models.extend wellFormed.sound invents.agrees old
  refine ⟨situation.enter invents, models, ?_, ?_⟩
  · have older : Context.Describes (Realizes store (params ++ Ty.varsOf types) extended)
        inference.environment context := by
      refine realization.entries.imp fun entry member scheme realizes used isInstance => ?_
      obtain ⟨chosen, given, same⟩ := realizes used isInstance
      let further (id : VariableId) : Ty :=
        if store.Reaches (params ++ Ty.varsOf types) id then extended id else chosen id
      refine ⟨further, fun id reached => if_pos reached, ?_⟩
      rw [invents.agrees.resolve_eq, ← same]
      refine Ty.substitute_congr fun id occurs => ?_
      have inside : id < inference.store.cells.size :=
        (wellFormed.sound.resolve_over (wellFormed.environment entry member)).lt occurs
      by_cases reached : store.Reaches (params ++ Ty.varsOf types) id
      · have isFixed : inference.store.Reaches params id := by
          rcases reaches_append.mp reached with isParam | isNew
          · rwa [reaches_congr invents.agrees.resolve_eq] at isParam
          · -- the new variables reach no variable that was there before
            obtain ⟨place, member, -⟩ := framed.confined id inside isNew
            exact absurd member List.not_mem_nil
        calc further id = extended id := if_pos reached
          _ = model id := old id inside
          _ = chosen id := (given id isFixed).symm
      · exact if_neg reached
    refine older.bindEach parameters (·.substitute extended) fun type _ used isInstance => ?_
    exact ⟨extended, fun _ _ => rfl,
      (models type).trans (Scheme.instance_monomorphic.mp isInstance).symm⟩
  · rw [List.map_append, ← realization.around_eq]
    congr 1
    exact List.map_congr_left fun type member =>
      (wellFormed.undetermined type member).substitute_eq old

/-- A constant realizes the scheme of the type that the model gives it. -/
theorem Realization.declare
    (realization : Realization model before params pending context around) (name : String)
    {type : Ty} (walked : Walked before after params type.vars [])
    (typeOver : type.Over after.store.cells.size)
    (old : ∀ id < before.store.cells.size, extended id = model id)
    (models : after.store.Models extended) :
    Realization extended { after with environment := (name, type) :: after.environment } params
      pending ((name, .generalised around (type.substitute extended)) :: context) around := by
  have behind := realization.walked walked (List.subset_append_left _ _) old models
  refine ⟨realization.situation.declare name walked typeOver, models, ?_, behind.around_eq⟩
  refine behind.entries.bind name ?_
  rintro used ⟨replacement, fixed, rfl⟩
  refine ⟨fun id => (extended id).substitute replacement, fun id reached => ?_, ?_⟩
  · -- what the model gives a variable of the parameters is fixed in the scheme
    have keeps : (extended id).substitute replacement = (extended id).substitute .var := by
      refine Ty.substitute_congr fun place occurs => fixed place ?_
      rw [← behind.situation.params_eq, Inference.params, reaches_varsOf] at reached
      obtain ⟨param, isParam, found⟩ := reached
      rw [Scheme.generalised, ← behind.around_eq]
      exact Ty.mem_varsOf.mpr ⟨param.substitute extended, List.mem_map_of_mem isParam,
        models.mem_vars found occurs⟩
    exact keeps.trans (Ty.substitute_var _)
  · rw [← Ty.substitute_substitute, models type]
    rfl

/-- A walk that reports nothing, behind which a model has been extended to one with a
property. -/
def Extends (model : VariableId → Ty) (before after : Inference)
    (property : (VariableId → Ty) → Prop) : Prop :=
  after.diagnostics = before.diagnostics ∧ ∃ extended : VariableId → Ty,
    (∀ id < before.store.cells.size, extended id = model id) ∧
      after.store.Models extended ∧ property extended

/-- What follows from a property is a property as well. -/
theorem Extends.imp {first second : (VariableId → Ty) → Prop}
    (extends' : Extends model before after first)
    (implies : ∀ extended, first extended → second extended) :
    Extends model before after second := by
  obtain ⟨quiet, extended, old, models, holds⟩ := extends'
  exact ⟨quiet, extended, old, models, implies extended holds⟩

/-- Two walks, one after the other. -/
theorem Extends.bind {between : Inference} {first second : (VariableId → Ty) → Prop}
    (extends' : Extends model before between first)
    (size_le : before.store.cells.size ≤ between.store.cells.size)
    (next : ∀ extended, (∀ id < before.store.cells.size, extended id = model id) →
      between.store.Models extended → first extended → Extends extended between after second) :
    Extends model before after second := by
  obtain ⟨quiet, middle, middleOld, middleModels, holds⟩ := extends'
  obtain ⟨quietNext, extended, old, models, holdsNext⟩ := next middle middleOld middleModels holds
  refine ⟨quietNext.trans quiet, extended, fun id inside => ?_, models, holdsNext⟩
  exact (old id (Nat.lt_of_lt_of_le inside size_le)).trans (middleOld id inside)

/-- A model that solves the equations of a walk stays one. -/
theorem Solves.extends {pairs : List (Ty × Ty)} (solves : Solves before after known pairs)
    (models : before.store.Models model) (equates : Solver.Equates model pairs) :
    Extends model before after fun _ => True := by
  obtain ⟨quiet, modelsAfter⟩ := solves.general model models equates
  exact ⟨quiet, model, fun _ _ => rfl, modelsAfter, trivial⟩

open Classical in
/-- A use of a name has every type with which its scheme can be used. -/
theorem lookup_extends (realization : Realization model inference params pending context around)
    {name : String} {scheme : Scheme} {image used : Ty}
    (bound : context.lookup name = some scheme) (isInstance : scheme.Instance used)
    (ran : (lookup name).run inference = (image, after)) :
    Extends model inference after fun extended => image.substitute extended = used := by
  have wellFormed := realization.situation.wellFormed
  rcases realization.entries.lookup name with ⟨-, unbound⟩ | ⟨type, _, declared, found, realizes⟩
  · exact absurd (bound.symm.trans unbound) (by simp)
  obtain rfl := Option.some.inj (found.symm.trans bound)
  obtain ⟨chosen, given, rfl⟩ := realizes used isInstance
  have typeOver := wellFormed.environment _ (mem_of_lookup declared)
  obtain ⟨_, store, replacement, instantiateRan, instantiates, -, -⟩ :=
    instantiate_spec wellFormed typeOver
  rw [lookup_eq, declared] at ran
  obtain ⟨rfl, rfl⟩ := Prod.mk.inj (instantiateRan.symm.trans ran)
  have isFixed_iff (id : VariableId) :
      inference.store.Reaches (Ty.varsOf inference.undetermined) id ↔
        inference.store.Reaches params id := by
    rw [← realization.situation.params_eq, Inference.params]
  have fresh := instantiates.fresh
  have injective := instantiates.injective
  simp only [isFixed_iff] at fresh injective
  -- a fresh variable is given what has been chosen for the one that it stands for
  let source (renamed id : VariableId) : Prop :=
    id ∈ (inference.store.resolve type).vars ∧ ¬ inference.store.Reaches params id ∧
      replacement id = .var renamed
  let extended (id : VariableId) : Ty :=
    if isRenamed : ∃ place, source id place then chosen isRenamed.choose else model id
  have old (id : VariableId) (inside : id < inference.store.cells.size) :
      extended id = model id := by
    refine dif_neg ?_
    rintro ⟨place, occurs, isGeneric, replaced⟩
    obtain ⟨renamed, here, new, -⟩ := fresh place occurs isGeneric
    obtain rfl := Ty.var.inj (replaced.symm.trans here)
    exact absurd inside (Nat.not_lt.mpr new)
  have models := realization.models.extend wellFormed.sound instantiates.agrees old
  refine ⟨rfl, extended, old, models, ?_⟩
  rw [instantiates.image_eq]
  refine (Ty.substitute_substitute _ _ _).trans (Ty.substitute_congr fun id occurs => ?_)
  by_cases isFixed : inference.store.Reaches params id
  · have inside := (wellFormed.sound.resolve_over typeOver).lt occurs
    rw [instantiates.fixed id ((isFixed_iff id).mpr isFixed), Ty.substitute, old id inside,
      given id isFixed]
  · obtain ⟨renamed, here, -, -⟩ := fresh id occurs isFixed
    have isRenamed : ∃ place, source renamed place := ⟨id, occurs, isFixed, here⟩
    obtain ⟨sourceOccurs, sourceGeneric, replaced⟩ := isRenamed.choose_spec
    have same : isRenamed.choose = id := injective isRenamed.choose sourceOccurs id occurs
      sourceGeneric isFixed (replaced.trans here.symm)
    rw [here, Ty.substitute]
    exact (dif_pos isRenamed).trans (congrArg chosen same)

end Inferrer

end ArrowScript
