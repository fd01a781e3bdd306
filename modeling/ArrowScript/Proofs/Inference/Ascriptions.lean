import ArrowScript.Proofs.Inference.Typing
import ArrowScript.Proofs.Inference.Walks

/-!
# The types of ascriptions

The type that inference gives an ascription is its most general one. It is composed of
fresh variables, so it restricts nothing that is there already, and every type that the
ascription denotes is a case of it.
-/

namespace ArrowScript

namespace Store

variable {before between after : Store}

/-- Types composed of new variables, of which every possible list of types is a case. -/
structure Invents (before after : Store) (possible : List Ty → Prop) (types : List Ty) :
    Prop where
  agrees : Agrees before after
  covered : ∀ type ∈ types, type.Over after.cells.size
  new : ∀ id ∈ Ty.varsOf types, before.cells.size ≤ id
  allowed : possible types
  general : ∀ (model : VariableId → Ty) (images : List Ty), possible images →
    ∃ extended : VariableId → Ty, (∀ id < before.cells.size, extended id = model id) ∧
      types.map (·.substitute extended) = images

namespace Invents

/-- New variables are made without touching anything. -/
theorem framed {possible : List Ty → Prop} {types : List Ty} (sound : before.Sound)
    (invents : Invents before after possible types) :
    Framed before after [] (Ty.varsOf types) := by
  have framed := Framed.of_agrees invents.agrees sound
  refine { framed with old := ?_, confined := ?_ }
  · intro id member
    obtain ⟨type, isType, occurs⟩ := Ty.mem_varsOf.mp member
    exact (invents.covered type isType).lt occurs
  · intro id old reaches
    obtain ⟨place, member, occurs⟩ := reaches
    have new := invents.new place member
    rw [invents.agrees.resolve_eq, resolve_free (free_of_le new), Ty.vars,
      List.mem_singleton] at occurs
    exact absurd old (occurs ▸ Nat.not_lt.mpr new)

/-- Nothing has to be invented for no types. -/
theorem nil {possible : List Ty → Prop} (exact : ∀ types, possible types ↔ types = []) :
    Invents before before possible [] where
  agrees := .refl before
  covered := by simp
  new := by simp
  allowed := (exact []).mpr rfl
  general model images isPossible :=
    ⟨model, fun _ _ => rfl, ((exact images).mp isPossible).symm⟩

/-- Types are invented for some places and then for others. -/
theorem append {possible others both : List Ty → Prop} {types more : List Ty}
    (first : Invents before between possible types) (second : Invents between after others more)
    (combine : ∀ images, both images ↔
      ∃ left right, images = left ++ right ∧ possible left ∧ others right) :
    Invents before after both (types ++ more) where
  agrees := first.agrees.trans second.agrees
  covered type member := by
    rcases List.mem_append.mp member with isFirst | isSecond
    · exact (first.covered type isFirst).mono second.agrees.size_le
    · exact second.covered type isSecond
  new id member := by
    obtain ⟨type, member, occurs⟩ := Ty.mem_varsOf.mp member
    rcases List.mem_append.mp member with isFirst | isSecond
    · exact first.new id (Ty.mem_varsOf.mpr ⟨type, isFirst, occurs⟩)
    · exact Nat.le_trans first.agrees.size_le
        (second.new id (Ty.mem_varsOf.mpr ⟨type, isSecond, occurs⟩))
  allowed := (combine _).mpr ⟨types, more, rfl, first.allowed, second.allowed⟩
  general model images isPossible := by
    obtain ⟨left, right, rfl, leftPossible, rightPossible⟩ := (combine images).mp isPossible
    obtain ⟨middle, middleOld, middleImages⟩ := first.general model left leftPossible
    obtain ⟨extended, old, images⟩ := second.general middle right rightPossible
    refine ⟨extended, fun id inside => ?_, ?_⟩
    · rw [old id (Nat.lt_of_lt_of_le inside first.agrees.size_le), middleOld id inside]
    · rw [List.map_append, images, ← middleImages]
      congr 1
      refine List.map_congr_left fun type member => Ty.substitute_congr fun id occurs => ?_
      exact old id ((first.covered type member).lt occurs)

/-- A type that is composed of invented ones is invented as well. -/
theorem compose {possible whole : List Ty → Prop} {types : List Ty} {type : Ty}
    (invents : Invents before after possible types)
    (covered : (∀ part ∈ types, part.Over after.cells.size) → type.Over after.cells.size)
    (parts : ∀ id ∈ type.vars, id ∈ Ty.varsOf types) (allowed : whole [type])
    (general : ∀ images, whole images → ∃ partImages, possible partImages ∧
      ∀ model : VariableId → Ty, types.map (·.substitute model) = partImages →
        [type.substitute model] = images) :
    Invents before after whole [type] where
  agrees := invents.agrees
  covered := by simpa using covered invents.covered
  new id member := invents.new id (parts id (by simpa using member))
  allowed := allowed
  general model images isPossible := by
    obtain ⟨partImages, partPossible, composed⟩ := general images isPossible
    obtain ⟨extended, old, same⟩ := invents.general model partImages partPossible
    exact ⟨extended, old, composed extended same⟩

end Invents

/-- No parameters have no types. -/
theorem denoteAll_nil {types : List Ty} : Parameter.DenoteAll [] types ↔ types = [] := by
  constructor
  · rintro ⟨⟩
    rfl
  · rintro rfl
    exact .nil

/-- The lists of one type with a property. -/
def Only (allowed : Ty → Prop) (types : List Ty) : Prop := ∃ type, types = [type] ∧ allowed type

/-- The types of parameters are those of the first one and those of the others. -/
theorem denoteAll_cons {param : Parameter} {params : List Parameter} {images : List Ty} :
    Parameter.DenoteAll (param :: params) images ↔
      ∃ left right, images = left ++ right ∧ Only param.Denotes left ∧
        Parameter.DenoteAll params right := by
  constructor
  · rintro (_ | ⟨first, rest⟩)
    exact ⟨[_], _, rfl, ⟨_, rfl, first⟩, rest⟩
  · rintro ⟨_, others, rfl, ⟨image, rfl, first⟩, rest⟩
    exact .cons first rest

/-- A primitive needs no invention. -/
theorem Invents.primitive {allowed : Ty → Prop} (kind : Primitive)
    (exact : ∀ type, allowed type ↔ type = .primitive kind) :
    Invents before before (Only allowed) [.primitive kind] where
  agrees := .refl before
  covered := by simp
  new := by simp
  allowed := ⟨_, rfl, (exact _).mpr rfl⟩
  general := by
    rintro model _ ⟨image, rfl, isAllowed⟩
    exact ⟨model, fun _ _ => rfl, by simp [(exact image).mp isAllowed]⟩

/-- An array is invented by inventing its element. -/
theorem Invents.array {offset : Int} {element : Ascription} {type : Ty}
    (invents : Invents before after (Only element.Denotes) [type]) :
    Invents before after (Only (Ascription.array offset element).Denotes) [.array type] := by
  obtain ⟨_, same, denotes⟩ := invents.allowed
  cases same
  refine invents.compose (by simp) (by simp) ⟨_, rfl, .array offset denotes⟩ ?_
  rintro _ ⟨image, rfl, imageDenotes⟩
  cases imageDenotes with
  | array _ inner => exact ⟨[_], ⟨_, rfl, inner⟩, fun model same => by simpa using same⟩

/-- A function is invented by inventing its parameters and its result. -/
theorem Invents.function {offset : Int} {params : List Parameter}
    {result : Ascription} {types : List Ty} {type : Ty}
    (invents : Invents before after
      (fun images => ∃ left right, images = left ++ right ∧ Parameter.DenoteAll params left ∧
        Only result.Denotes right) (types ++ [type])) :
    Invents before after (Only (Ascription.function offset params result).Denotes)
      [.function types type] := by
  obtain ⟨left, _, same, paramsDenote, _, rfl, denotes⟩ := invents.allowed
  obtain ⟨rfl, single⟩ := List.append_inj' same rfl
  cases single
  refine invents.compose ?_ ?_ ⟨_, rfl, .function offset paramsDenote denotes⟩ ?_
  · intro covered
    simp only [Ty.Over, Ty.allOver_iff]
    exact ⟨fun param member => covered param (by simp [member]), covered type (by simp)⟩
  · simp only [Ty.vars, Ty.mem_varsOf, List.mem_append, List.mem_singleton]
    rintro id (⟨param, member, occurs⟩ | occurs)
    · exact ⟨param, .inl member, occurs⟩
    · exact ⟨type, .inr rfl, occurs⟩
  · rintro _ ⟨image, rfl, imageDenotes⟩
    cases imageDenotes with
    | @function _ _ _ images returned imagesDenote returnedDenotes =>
      refine ⟨images ++ [returned], ⟨images, _, rfl, imagesDenote, _, rfl, returnedDenotes⟩, ?_⟩
      intro model same
      rw [List.map_append] at same
      obtain ⟨paramsSame, resultSame⟩ := List.append_inj' same rfl
      simpa [paramsSame] using resultSame

end Store

namespace Inferrer

open Store

/-- A fresh variable is the invention of any type. -/
theorem freshVariable_invents {inference : Inference} {allowed : Ty → Prop}
    (sound : inference.store.Sound) (any : ∀ type, allowed type) :
    ∃ type store, freshVariable.run inference = (type, { inference with store }) ∧
      Invents inference.store store (Only allowed) [type] := by
  obtain ⟨store, ran, agrees, size, -⟩ := freshVariable_spec sound
  refine ⟨_, store, ran, agrees, by simp [size], by simp, ⟨_, rfl, any _⟩, ?_⟩
  rintro model _ ⟨image, rfl, -⟩
  refine ⟨fun id => if id = inference.store.cells.size then image else model id, ?_, by simp⟩
  exact fun id inside => if_neg (Nat.ne_of_lt inside)

mutual

/-- The type of an ascription is the most general one that it denotes. -/
theorem ascriptionType_invents (ascription : Ascription) (inference : Inference)
    (sound : inference.store.Sound) :
    ∃ type store, (ascriptionType ascription).run inference = (type, { inference with store }) ∧
      Invents inference.store store (Only ascription.Denotes) [type] := by
  cases ascription with
  | named offset name =>
    rw [ascriptionType]
    cases named : Primitive.ofTypeName? name with
    | none => exact freshVariable_invents sound fun type => .other offset named type
    | some kind =>
      refine ⟨_, _, rfl, Invents.primitive kind fun type => ⟨fun denotes => ?_, ?_⟩⟩
      · cases denotes with
        | builtIn _ again => rw [Option.some.inj (named.symm.trans again)]
        | other _ unknown => exact absurd (named.symm.trans unknown) (by simp)
      · rintro rfl
        exact .builtIn offset named
  | array offset element =>
    obtain ⟨type, store, ran, invents⟩ := ascriptionType_invents element inference sound
    refine ⟨.array type, store, ?_, invents.array⟩
    rw [ascriptionType, run_bind, ran, run_pure]
  | function offset params result =>
    obtain ⟨types, between, paramsRan, paramsInvent⟩ :=
      parameterTypes_invents params inference sound
    obtain ⟨type, store, resultRan, resultInvents⟩ :=
      ascriptionType_invents result { inference with store := between }
        (paramsInvent.agrees.sound sound)
    refine ⟨.function types type, store, ?_, ?_⟩
    · rw [ascriptionType, run_bind, paramsRan, run_bind, resultRan, run_pure]
    · exact (paramsInvent.append resultInvents fun images => Iff.rfl).function

/-- The type of a parameter is the most general one that it can have. -/
theorem parameterType_invents (param : Parameter) (inference : Inference)
    (sound : inference.store.Sound) :
    ∃ type store, (parameterType param).run inference = (type, { inference with store }) ∧
      Invents inference.store store (Only param.Denotes) [type] := by
  obtain ⟨offset, name, ascription, declaration⟩ := param
  cases ascription with
  | none => exact freshVariable_invents sound fun type => .free offset name declaration type
  | some ascription =>
    obtain ⟨type, store, ran, invents⟩ := ascriptionType_invents ascription inference sound
    refine ⟨type, store, by rw [parameterType, ran], ?_⟩
    have same : Parameter.Denotes { offset, name, ascription := some ascription, declaration } =
        ascription.Denotes := by
      funext image
      refine propext ⟨fun denotes => ?_, .ascribed offset name declaration⟩
      cases denotes with
      | ascribed _ _ _ inner => exact inner
    rwa [same]

/-- The types of several parameters are the most general ones that they can have. -/
theorem parameterTypes_invents (params : List Parameter) (inference : Inference)
    (sound : inference.store.Sound) :
    ∃ types store, (parameterTypes params).run inference = (types, { inference with store }) ∧
      Invents inference.store store (Parameter.DenoteAll params) types := by
  cases params with
  | nil =>
    exact ⟨[], _, rfl, .nil fun types => denoteAll_nil⟩
  | cons param rest =>
    obtain ⟨type, between, ran, invents⟩ := parameterType_invents param inference sound
    obtain ⟨types, store, restRan, restInvent⟩ :=
      parameterTypes_invents rest { inference with store := between }
        (invents.agrees.sound sound)
    refine ⟨type :: types, store, ?_, invents.append restInvent fun images => denoteAll_cons⟩
    rw [parameterTypes, run_bind, ran, run_bind, restRan, run_pure]

end

/-- The first parameter is bound before the others. -/
theorem bindParameters_cons (param : Parameter) (rest : List Parameter) (inference : Inference) :
    (bindParameters (param :: rest)).run inference =
      let first := (parameterType param).run inference
      let others := (bindParameters rest).run
        { first.2 with
          environment := (param.name, first.1) :: first.2.environment
          undetermined := first.2.undetermined ++ [first.1] }
      (first.1 :: others.1, others.2) := rfl

/-- The parameters of a function are bound to the most general types that they can have,
and these are undetermined from then on. -/
theorem bindParameters_invents (params : List Parameter) (inference : Inference)
    (sound : inference.store.Sound) :
    ∃ types store, (bindParameters params).run inference =
        (types, { inference with
          store
          environment := bindEach id inference.environment params types
          undetermined := inference.undetermined ++ types }) ∧
      Invents inference.store store (Parameter.DenoteAll params) types := by
  induction params generalizing inference with
  | nil =>
    refine ⟨[], inference.store, ?_, .nil fun types => denoteAll_nil⟩
    rw [List.append_nil]
    rfl
  | cons param rest inductionHypothesis =>
    obtain ⟨type, between, ran, invents⟩ := parameterType_invents param inference sound
    obtain ⟨types, store, restRan, restInvent⟩ := inductionHypothesis
      { inference with
        store := between
        environment := (param.name, type) :: inference.environment
        undetermined := inference.undetermined ++ [type] } (invents.agrees.sound sound)
    refine ⟨type :: types, store, ?_, invents.append restInvent fun images => denoteAll_cons⟩
    rw [bindParameters_cons, ran]
    simp only [restRan, bindEach, id, List.append_assoc, List.singleton_append]

end Inferrer

end ArrowScript
