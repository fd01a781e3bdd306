import ArrowScript.Proofs.Inference.Sums
import ArrowScript.Proofs.Ty.Mirroring

/-!
# States that mirror each other

A walk over a part of a tree is followed in another state, in which the visible names have
types that correspond. It comes to results that correspond, and reports problems of the same
kinds at the same places.

`Mirrored` relates two walks from two states. What it says of their results is a relation
that may depend on the stores behind the walks. There is one rule for walks one behind the
other, and one lemma for each step of which walks are composed.
-/

namespace ArrowScript

/-- What a diagnostic says of the source: the kind of the problem, and its place. -/
def Diagnostic.finding (diagnostic : Diagnostic) : ErrorCode × Int :=
  (diagnostic.code, diagnostic.offset)

namespace Inference

/-- Two states in which the same is visible: the visible names and the parameters have types
that correspond. -/
structure Mirrors (exchange : VariableId → VariableId) (visible : String → Prop)
    (one other : Inference) : Prop where
  stores : Store.Mirrors exchange one.store other.store
  names : ∀ name, visible name → Option.Rel (Store.Image exchange one.store other.store)
    (one.environment.lookup name) (other.environment.lookup name)
  undetermined : List.Forall₂ (Store.Image exchange one.store other.store) one.undetermined
    other.undetermined

/-- Two such states have become two others, and the same has been found on the way. -/
structure Advance (exchange : VariableId → VariableId) (visible : String → Prop)
    (one other oneAfter otherAfter : Inference) : Prop where
  stores : Store.Advance exchange one.store other.store oneAfter.store otherAfter.store
  mirrors : Mirrors exchange visible oneAfter otherAfter
  findings : ∃ findings,
    oneAfter.diagnostics.map Diagnostic.finding =
        one.diagnostics.map Diagnostic.finding ++ findings ∧
      otherAfter.diagnostics.map Diagnostic.finding =
        other.diagnostics.map Diagnostic.finding ++ findings

variable {exchange : VariableId → VariableId} {visible : String → Prop}
  {one other oneAfter otherAfter last otherLast : Inference}

/-- Nothing has changed. -/
theorem Advance.refl (mirrors : Mirrors exchange visible one other) :
    Advance exchange visible one other one other where
  stores := .refl mirrors.stores
  mirrors
  findings := ⟨[], (List.append_nil _).symm, (List.append_nil _).symm⟩

/-- States can become others again and again. -/
theorem Advance.trans (first : Advance exchange visible one other oneAfter otherAfter)
    (second : Advance exchange visible oneAfter otherAfter last otherLast) :
    Advance exchange visible one other last otherLast where
  stores := first.stores.trans second.stores
  mirrors := second.mirrors
  findings := by
    obtain ⟨found, here, otherHere⟩ := first.findings
    obtain ⟨more, there, otherThere⟩ := second.findings
    refine ⟨found ++ more, ?_, ?_⟩
    · rw [there, here, List.append_assoc]
    · rw [otherThere, otherHere, List.append_assoc]

/-- The names and the parameters of two states keep types that correspond. -/
theorem Mirrors.onward (mirrors : Mirrors exchange visible one other) {store otherStore : Store}
    (advance : Store.Advance exchange one.store other.store store otherStore) :
    Mirrors exchange visible { one with store } { other with store := otherStore } where
  stores := advance.mirrors
  names name seen := by
    have found := mirrors.names name seen
    generalize one.environment.lookup name = type at found ⊢
    generalize other.environment.lookup name = image at found ⊢
    cases found with
    | none => exact .none
    | some same => exact .some (same.onward advance)
  undetermined := Store.forall_onward mirrors.undetermined advance

/-- The stores of two states have become others. -/
theorem Mirrors.advance (mirrors : Mirrors exchange visible one other) {store otherStore : Store}
    (advance : Store.Advance exchange one.store other.store store otherStore) :
    Advance exchange visible one other { one with store } { other with store := otherStore } where
  stores := advance
  mirrors := mirrors.onward advance
  findings := ⟨[], (List.append_nil _).symm, (List.append_nil _).symm⟩

end Inference

namespace Inferrer

open Store

variable {exchange : VariableId → VariableId} {visible : String → Prop}

/-- A relation of two results, which may depend on the stores behind two walks. -/
abbrev Relation (α : Type) := Store → Store → α → α → Prop

/-- Two walks that end in states that mirror each other, with results that are related, if
they begin in such states. -/
def Mirrored {α : Type} (exchange : VariableId → VariableId) (visible : String → Prop)
    (related : Relation α) (walk otherWalk : Inferrer α) (one other : Inference) : Prop :=
  Inference.Mirrors exchange visible one other →
    Inference.Advance exchange visible one other (walk.run one).2 (otherWalk.run other).2 ∧
      related (walk.run one).2.store (otherWalk.run other).2.store (walk.run one).1
        (otherWalk.run other).1

/-- The same result in both stores. -/
abbrev Same {α : Type} : Relation α := fun _ _ result otherResult => result = otherResult

namespace Mirrored

variable {α β : Type} {related : Relation α} {further : Relation β} {one other : Inference}
  {walk otherWalk : Inferrer α}

/-- Results that are related. -/
theorem pure {result otherResult : α} (same : related one.store other.store result otherResult) :
    Mirrored exchange visible related (pure result) (pure otherResult) one other :=
  fun mirrors => ⟨.refl mirrors, same⟩

/-- Walks that begin in states that mirror each other. -/
theorem given (walks : Inference.Mirrors exchange visible one other →
      Mirrored exchange visible related walk otherWalk one other) :
    Mirrored exchange visible related walk otherWalk one other :=
  fun mirrors => walks mirrors mirrors

/-- One walk behind another. -/
theorem bind {rest otherRest : α → Inferrer β}
    (first : Mirrored exchange visible related walk otherWalk one other)
    (second : ∀ (result otherResult : α) (next otherNext : Inference),
      Store.Advance exchange one.store other.store next.store otherNext.store →
      related next.store otherNext.store result otherResult →
      Mirrored exchange visible further (rest result) (otherRest otherResult) next otherNext) :
    Mirrored exchange visible further (walk >>= rest) (otherWalk >>= otherRest) one other := by
  intro mirrors
  obtain ⟨here, same⟩ := first mirrors
  obtain ⟨there, result⟩ := second _ _ _ _ here.stores same here.mirrors
  exact ⟨here.trans there, result⟩

/-- A step on the store. -/
theorem solve {solver otherSolver : Solver α}
    (step : Store.Mirrors exchange one.store other.store →
      Store.Advance exchange one.store other.store (solver.run one.store).2
          (otherSolver.run other.store).2 ∧
        related (solver.run one.store).2 (otherSolver.run other.store).2
          (solver.run one.store).1 (otherSolver.run other.store).1) :
    Mirrored exchange visible related (solve solver) (Inferrer.solve otherSolver) one other := by
  intro mirrors
  obtain ⟨advance, same⟩ := step mirrors.stores
  exact ⟨mirrors.advance advance, same⟩

end Mirrored

/-! ## Single steps -/

variable {one other : Inference} {type image left right leftImage rightImage : Ty}

/-- Variables that are added correspond. -/
theorem fresh_mirrored :
    Mirrored exchange visible
      (fun one other id otherId => Image exchange one other (.var id) (.var otherId))
      (solve Solver.fresh) (solve Solver.fresh) one other := by
  apply Mirrored.solve
  intro mirrors
  obtain ⟨advance, inside, same⟩ := Solver.fresh_mirrored mirrors
  rw [← same]
  exact ⟨advance, advance.mirrors.image_rename (Ty.over_var.mpr inside)⟩

/-- New type variables correspond. -/
theorem freshVariable_mirrored :
    Mirrored exchange visible (Image exchange) freshVariable freshVariable one other :=
  .bind fresh_mirrored fun _ _ _ _ _ same => .pure same

/-- The same kinds of problems are reported at the same place. -/
theorem report_mirrored {problems otherProblems : List Problem}
    (codes : problems.map Problem.code = otherProblems.map Problem.code) (offset : Int) :
    Mirrored exchange visible Same (report problems offset) (report otherProblems offset)
      one other := by
  have finding (problems : List Problem) :
      (problems.map (⟨·, offset⟩ : Problem → Diagnostic)).map Diagnostic.finding =
        (problems.map Problem.code).map (·, offset) := by
    rw [List.map_map, List.map_map]
    rfl
  intro mirrors
  refine ⟨⟨.refl mirrors.stores, ⟨mirrors.stores, mirrors.names, mirrors.undetermined⟩,
    (problems.map Problem.code).map (·, offset), ?_, ?_⟩, rfl⟩
  · rw [← finding, ← List.map_append]
    rfl
  · rw [codes, ← finding, ← List.map_append]
    rfl

/-- Types that correspond are unified with the same success. -/
theorem unify_mirrored (leftSame : Image exchange one.store other.store left leftImage)
    (rightSame : Image exchange one.store other.store right rightImage) {offset place : Int}
    (offset_eq : place = offset) :
    Mirrored exchange visible Same (unify left right offset) (unify leftImage rightImage place)
      one other := by
  rw [offset_eq]
  have solved : Mirrored exchange visible
      (fun _ _ problems otherProblems =>
        problems.map Problem.code = otherProblems.map Problem.code)
      (solve (Solver.unify left right)) (solve (Solver.unify leftImage rightImage)) one other :=
    .solve fun mirrors => Solver.unify_mirrored mirrors leftSame rightSame
  apply solved.bind
  intro problems otherProblems _ _ _ codes
  apply (report_mirrored codes offset).bind
  intro _ _ _ _ _ _
  apply Mirrored.pure
  have lengths := congrArg List.length codes
  rw [List.length_map, List.length_map] at lengths
  show problems.isEmpty = otherProblems.isEmpty
  rw [Bool.eq_iff_iff, List.isEmpty_iff_length_eq_zero, List.isEmpty_iff_length_eq_zero, lengths]

/-- A name is given types that correspond. -/
theorem bind_mirrored (name : String)
    (same : Image exchange one.store other.store type image) :
    Mirrored exchange visible Same (bind name type) (bind name image) one other := by
  intro mirrors
  refine ⟨⟨.refl mirrors.stores, ⟨mirrors.stores, ?_, mirrors.undetermined⟩, [], ?_⟩, rfl⟩
  · intro sought seen
    change Option.Rel _ (List.lookup sought ((name, type) :: one.environment))
      (List.lookup sought ((name, image) :: other.environment))
    rw [List.lookup_cons, List.lookup_cons]
    cases sought == name with
    | true => exact .some same
    | false => exact mirrors.names sought seen
  · exact ⟨(List.append_nil _).symm, (List.append_nil _).symm⟩

/-- Instances of types that correspond. -/
theorem instantiate_mirrored (same : Image exchange one.store other.store type image) :
    Mirrored exchange visible (Image exchange) (instantiate type) (instantiate image) one
      other := by
  intro mirrors
  obtain ⟨advance, instances⟩ :=
    Solver.freshInstance_mirrored mirrors.stores mirrors.undetermined same
  exact ⟨mirrors.advance advance, instances⟩

/-- The uses of a visible name. -/
theorem lookup_mirrored {name : String} (seen : visible name) :
    Mirrored exchange visible (Image exchange) (lookup name) (lookup name) one other := by
  intro mirrors
  have found := mirrors.names name seen
  rw [lookup_eq, lookup_eq]
  generalize one.environment.lookup name = type at found ⊢
  generalize other.environment.lookup name = image at found ⊢
  cases found with
  | none => exact freshVariable_mirrored mirrors
  | some same => exact instantiate_mirrored same mirrors

/-- The end of a chain, which is a free variable or no variable. -/
theorem compress_mirrored (same : Image exchange one.store other.store type image) :
    Mirrored exchange visible
      (fun one other reached otherReached => SameForm exchange one other reached otherReached ∧
        ∀ id, reached = .var id → one.Free id)
      (solve (Solver.compress type)) (solve (Solver.compress image)) one other :=
  .solve fun mirrors => Solver.compress_mirrored mirrors same rfl rfl

/-- Printing tells nothing about the stores. -/
theorem print_mirrored (same : Image exchange one.store other.store type image) :
    Mirrored exchange visible (fun _ _ _ _ => True) (solve (Solver.print type))
      (solve (Solver.print image)) one other := by
  apply Mirrored.solve
  intro mirrors
  obtain ⟨after, -, ran, agrees, size⟩ := Solver.print_spec mirrors.sound same.covered
  obtain ⟨otherAfter, -, otherRan, otherAgrees, otherSize⟩ :=
    Solver.print_spec mirrors.otherSound same.imageOver
  rw [ran, otherRan]
  exact ⟨.of_agrees mirrors agrees otherAgrees size otherSize, trivial⟩

/-! ## Ascriptions and parameters -/

mutual

/-- The types that an ascription denotes. -/
theorem ascriptionType_mirrored (ascription : Ascription) (one other : Inference) :
    Mirrored exchange visible (Image exchange) (ascriptionType ascription)
      (ascriptionType ascription) one other := by
  match ascription with
  | .named _ name =>
    rw [ascriptionType]
    cases Primitive.ofTypeName? name with
    | none => exact freshVariable_mirrored
    | some kind => exact .pure (.primitive kind)
  | .array _ element =>
    exact .bind (ascriptionType_mirrored element one other) fun _ _ _ _ _ same => .pure same.array
  | .function _ params result =>
    apply Mirrored.bind (parameterTypes_mirrored params one other)
    intro types images _ _ _ typesSame
    apply Mirrored.bind (ascriptionType_mirrored result _ _)
    intro type image _ _ later same
    exact .pure (.function (forall_onward typesSame later) same)

/-- The types of a parameter. -/
theorem parameterType_mirrored (param : Parameter) (one other : Inference) :
    Mirrored exchange visible (Image exchange) (parameterType param) (parameterType param) one
      other := by
  match param with
  | { ascription := some ascription, .. } => exact ascriptionType_mirrored ascription one other
  | { ascription := none, .. } => exact freshVariable_mirrored

/-- The types of several parameters. -/
theorem parameterTypes_mirrored (params : List Parameter) (one other : Inference) :
    Mirrored exchange visible (fun one other => List.Forall₂ (Image exchange one other))
      (parameterTypes params) (parameterTypes params) one other := by
  match params with
  | [] => exact .pure .nil
  | param :: rest =>
    apply Mirrored.bind (parameterType_mirrored param one other)
    intro type image _ _ _ same
    apply Mirrored.bind (parameterTypes_mirrored rest _ _)
    intro types images _ _ later typesSame
    exact .pure (.cons (same.onward later) typesSame)

end

/-- The type of a parameter is kept while its function is inferred. -/
theorem keep_mirrored (same : Image exchange one.store other.store type image) :
    Mirrored exchange visible Same
      (modify fun inference => { inference with undetermined := inference.undetermined ++ [type] })
      (modify fun inference => { inference with undetermined := inference.undetermined ++ [image] })
      one other := by
  intro mirrors
  have both := List.rel_append mirrors.undetermined (.cons same .nil)
  refine ⟨⟨.refl mirrors.stores, ⟨mirrors.stores, mirrors.names, both⟩, [], ?_⟩, rfl⟩
  exact ⟨(List.append_nil _).symm, (List.append_nil _).symm⟩

/-- The parameters of a function are bound to types that correspond. -/
theorem bindParameters_mirrored (params : List Parameter) (one other : Inference) :
    Mirrored exchange visible (fun one other => List.Forall₂ (Image exchange one other))
      (bindParameters params) (bindParameters params) one other := by
  induction params generalizing one other with
  | nil => exact .pure .nil
  | cons param rest inductionHypothesis =>
    apply Mirrored.bind (parameterType_mirrored param one other)
    intro type image _ _ _ same
    apply Mirrored.bind (bind_mirrored param.name same)
    intro _ _ _ _ bound _
    apply Mirrored.bind (keep_mirrored (same.onward bound))
    intro _ _ _ _ kept _
    apply Mirrored.bind (inductionHypothesis _ _)
    intro types images _ _ later typesSame
    exact .pure (.cons (((same.onward bound).onward kept).onward later) typesSame)

/-! ## Rules -/

/-- Whether a type is the primitive of strings does not depend on the store. -/
theorem isString_mirrored (same : Image exchange one.store other.store type image) :
    Mirrored exchange visible Same (isString type) (isString image) one other := by
  apply Mirrored.bind (compress_mirrored same)
  rintro reached otherReached _ _ _ ⟨form, -⟩
  cases form with
  | primitive kind => cases kind <;> exact .pure rfl
  | _ => exact .pure rfl

/-- A problem of the same kind is reported where any type is possible. -/
theorem refuse_mirrored {problem otherProblem : Problem}
    (code : problem.code = otherProblem.code) (offset : Int) :
    Mirrored exchange visible (Image exchange) (do report [problem] offset; freshVariable)
      (do report [otherProblem] offset; freshVariable) one other := by
  have codes : [problem].map Problem.code = [otherProblem].map Problem.code :=
    congrArg ([·]) code
  exact .bind (report_mirrored codes offset) fun _ _ _ _ _ _ => freshVariable_mirrored

/-- Corresponding types are refused as numbers alike. -/
theorem rejectSum_mirrored (operator : String) (offset : Int) (fits : Bool)
    (same : Image exchange one.store other.store type image) :
    Mirrored exchange visible (Image exchange) (rejectSum operator offset fits type)
      (rejectSum operator offset fits image) one other := by
  cases fits with
  | false => exact freshVariable_mirrored
  | true =>
    apply Mirrored.bind (print_mirrored same)
    intro text otherText _ _ _ _
    have code : (Problem.operatorTypeMismatch operator text).code =
        (Problem.operatorTypeMismatch operator otherText).code := rfl
    exact refuse_mirrored code offset

/-- A free variable becomes a number, and so does its image. -/
theorem linkNumber_mirrored {id : VariableId} (inside : id < one.store.cells.size)
    (free : one.store.Free id) :
    Mirrored exchange visible Same
      (solve (modify (·.setLink id (.primitive .number))))
      (solve (modify (·.setLink (exchange id) (.primitive .number)))) one other := by
  apply Mirrored.solve
  intro mirrors
  have absent : id ∉ (one.store.resolve (.primitive .number)).vars := List.not_mem_nil
  exact ⟨.setLink mirrors inside free absent (.primitive .number), rfl⟩

/-- The type of a sum of numbers is settled alike. -/
theorem settleSum_mirrored (operator : String) (offset : Int) (fits : Bool)
    (form : SameForm exchange one.store other.store type image)
    (ended : ∀ id, type = .var id → one.store.Free id) :
    Mirrored exchange visible (Image exchange) (settleSum operator offset fits type)
      (settleSum operator offset fits image) one other := by
  cases form with
  | var inside =>
    apply Mirrored.bind (linkNumber_mirrored inside (ended _ rfl))
    exact fun _ _ _ _ _ _ => .pure (.primitive .number)
  | primitive kind =>
    cases kind with
    | number => exact .pure (.primitive .number)
    | float => exact .pure (.primitive .float)
    | _ => exact rejectSum_mirrored operator offset fits (.primitive _)
  | array same => exact rejectSum_mirrored operator offset fits same.array
  | function paramsSame same =>
    exact rejectSum_mirrored operator offset fits (.function paramsSame same)

/-- The type of a sum. -/
theorem sumType_mirrored (leftSame : Image exchange one.store other.store left leftImage)
    (rightSame : Image exchange one.store other.store right rightImage)
    {leftOffset rightOffset otherLeft otherRight : Int} (leftPlace : otherLeft = leftOffset)
    (rightPlace : otherRight = rightOffset) (offset : Int) (operator : String) :
    Mirrored exchange visible (Image exchange)
      (sumType left right leftOffset rightOffset offset operator)
      (sumType leftImage rightImage otherLeft otherRight offset operator) one other := by
  have textual : Mirrored exchange visible Same
      (do if ← isString left then pure true else isString right)
      (do if ← isString leftImage then pure true else isString rightImage) one other := by
    apply Mirrored.bind (isString_mirrored leftSame)
    rintro found _ _ _ first rfl
    cases found with
    | true => exact .pure rfl
    | false => exact isString_mirrored (rightSame.onward first)
  rw [sumType_eq, sumType_eq]
  apply Mirrored.bind textual
  rintro found _ _ _ first rfl
  have leftSame := leftSame.onward first
  have rightSame := rightSame.onward first
  cases found with
  | true =>
    apply Mirrored.bind (unify_mirrored leftSame (.primitive .string) leftPlace)
    intro _ _ _ _ second _
    apply Mirrored.bind (unify_mirrored (rightSame.onward second) (.primitive .string) rightPlace)
    exact fun _ _ _ _ _ _ => .pure (.primitive .string)
  | false =>
    apply Mirrored.bind fresh_mirrored
    intro operand otherOperand _ _ second operandSame
    apply Mirrored.bind (unify_mirrored (leftSame.onward second) operandSame leftPlace)
    rintro leftFits _ _ _ third rfl
    have rightSame := (rightSame.onward second).onward third
    have operandSame := operandSame.onward third
    apply Mirrored.bind (unify_mirrored rightSame operandSame rightPlace)
    rintro rightFits _ _ _ fourth rfl
    apply Mirrored.bind (compress_mirrored (operandSame.onward fourth))
    rintro reached otherReached _ _ _ ⟨form, ended⟩
    exact settleSum_mirrored operator offset _ form ended

end Inferrer

end ArrowScript
