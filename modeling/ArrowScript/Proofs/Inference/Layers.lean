import ArrowScript.Proofs.Inference.Sums

/-!
# Inference with layers of names

The walk of the inference hands on one list of the names in scope, and puts back the old
list behind a function. Here the names stand in layers, one for each scope, and are bound
in place: what is bound goes into the innermost layer, a function adds a layer with a copy
of the parameter types around it, and takes off the innermost layer when it is left. A
walk may also fail. Then the layer is taken off all the same, and the failure goes on to
the walk around it.

Nothing puts an old layer back, so it has to be shown that those around a walk are the same
behind it. `Keeps` says that a part of the layers is kept, whether the walk ends or fails,
and with which failure. `Follows` says that a walk that binds in place does just what a walk
does that hands on its names.
-/

namespace ArrowScript

open Inferrer

/-- The names of one scope, the latest first, and the types of the parameters of the
functions around the place. -/
structure Layer where
  bindings : List (String × Ty) := []
  undetermined : List Ty := []

/-- The layer in use and the layers around it, from the inside outwards. -/
structure Layers where
  innermost : Layer := {}
  outer : List Layer := []

namespace Layers

/-- The names in scope, innermost first. -/
def environment (layers : Layers) : List (String × Ty) :=
  (layers.innermost :: layers.outer).flatMap Layer.bindings

/-- Gives a name a type in the layer in use. -/
def bind (layers : Layers) (name : String) (type : Ty) : Layers :=
  { layers with
    innermost :=
      { layers.innermost with bindings := (name, type) :: layers.innermost.bindings } }

/-- Adds a type of a parameter to those of the layer in use. -/
def hold (layers : Layers) (type : Ty) : Layers :=
  { layers with
    innermost :=
      { layers.innermost with undetermined := layers.innermost.undetermined ++ [type] } }

/-- Adds a layer without names. It begins with the parameter types of the one around it. -/
def enter (layers : Layers) : Layers where
  innermost := { undetermined := layers.innermost.undetermined }
  outer := layers.innermost :: layers.outer

/-- Takes off the innermost layer, unless it is the only one. -/
def leave (layers : Layers) : Layers :=
  match layers.outer with
  | [] => layers
  | innermost :: outer => { innermost, outer }

end Layers

/-- What a walk knows whose names stand in layers. -/
structure LayeredInference where
  store : Store := {}
  diagnostics : List Diagnostic := []
  layers : Layers := {}

/-- The same knowledge with the names in one list. -/
def LayeredInference.flat (inference : LayeredInference) : Inference where
  store := inference.store
  diagnostics := inference.diagnostics
  environment := inference.layers.environment
  undetermined := inference.layers.innermost.undetermined

/-- A walk with layers of names. When it fails, what it has changed stays changed. -/
abbrev LayeredInferrer := EStateM InternalError LayeredInference

namespace LayeredInferrer

/-- A step that looks at the names in scope, but binds none. Nothing of it is lost when it is
`Calm`. -/
def step {α : Type} (walk : Inferrer α) : LayeredInferrer α :=
  modifyGet fun inference =>
    let (result, after) := walk.run inference.flat
    (result, { inference with store := after.store, diagnostics := after.diagnostics })

/-- Changes the layers. -/
def rearrange (change : Layers → Layers) : LayeredInferrer Unit :=
  modify fun inference => { inference with layers := change inference.layers }

/-- Runs a walk in a layer of its own, which is taken off behind the walk, also when the walk
has failed. -/
def inNewLayer {α : Type} (walk : LayeredInferrer α) : LayeredInferrer α := do
  rearrange Layers.enter
  try walk
  finally rearrange Layers.leave

/-- The layer is taken off in both cases. -/
theorem run_inNewLayer {α : Type} (walk : LayeredInferrer α) (start : LayeredInference) :
    inNewLayer walk start =
      match walk { start with layers := start.layers.enter } with
      | .ok result after => .ok result { after with layers := after.layers.leave }
      | .error failure after => .error failure { after with layers := after.layers.leave } := by
  change EStateM.map Prod.fst (tryFinally' walk fun _ => rearrange Layers.leave)
    { start with layers := start.layers.enter } = _
  simp only [EStateM.map, tryFinally']
  cases walk { start with layers := start.layers.enter } <;> rfl

/-! ## What is kept of the layers -/

variable {α β γ : Type} {part : Layers → γ} {walk : LayeredInferrer α}
  {next : α → LayeredInferrer β} {faults further : List InternalError}

/-- How a walk ends that keeps a part of the layers. If there are faults that the walk comes
to, it fails with the first one. -/
def Kept (part : Layers → γ) (faults : List InternalError) (start : LayeredInference) :
    EStateM.Result InternalError LayeredInference α → Prop
  | .ok _ after => part after.layers = part start.layers ∧ faults = []
  | .error failure after =>
    part after.layers = part start.layers ∧ faults.head? = some failure

/-- What is kept depends on the layers at the start alone. -/
theorem Kept.imp {other : Layers → β} {start between : LayeredInference}
    {outcome : EStateM.Result InternalError LayeredInference α}
    (kept : Kept part faults between outcome)
    (same : ∀ layers, part layers = part between.layers → other layers = other start.layers) :
    Kept other faults start outcome := by
  cases outcome with
  | ok result after => exact ⟨same _ kept.1, kept.2⟩
  | error failure after => exact ⟨same _ kept.1, kept.2⟩

/-- A walk that keeps a part of the layers wherever it begins. -/
def Keeps (part : Layers → γ) (faults : List InternalError) (walk : LayeredInferrer α) : Prop :=
  ∀ start, Kept part faults start (walk start)

/-- How a walk ends that gives a name the type that it answers with, in the layer in use. If it
fails, it has bound nothing. -/
def Bound (name : String) (faults : List InternalError) (start : LayeredInference) :
    EStateM.Result InternalError LayeredInference (α × Ty) → Prop
  | .ok (_, type) after => after.layers = start.layers.bind name type ∧ faults = []
  | .error failure after => after.layers = start.layers ∧ faults.head? = some failure

namespace Keeps

/-- A result. -/
theorem pure (result : α) : Keeps part [] (pure result) := fun _ => ⟨rfl, rfl⟩

/-- A failure. -/
theorem throw (failure : InternalError) :
    Keeps part [failure] (throw failure : LayeredInferrer α) := fun _ => ⟨rfl, rfl⟩

/-- A step. -/
theorem step (walk : Inferrer α) : Keeps part [] (step walk) := fun _ => ⟨rfl, rfl⟩

/-- A change of another part. -/
theorem rearrange {change : Layers → Layers}
    (same : ∀ layers, part (change layers) = part layers) : Keeps part [] (rearrange change) :=
  fun start => ⟨same start.layers, rfl⟩

/-- A walk that keeps the layers keeps each part of them. -/
theorem of_all (keeps : Keeps id faults walk) : Keeps part faults walk :=
  fun start => (keeps start).imp fun _ => congrArg part

/-- Two walks, one after the other. The second one does not begin when the first one fails. -/
theorem bind (first : Keeps part faults walk)
    (second : ∀ result, Keeps part further (next result)) :
    Keeps part (faults ++ further) (walk >>= next) := by
  intro start
  have kept := first start
  change Kept part _ start (EStateM.bind walk next start)
  rw [EStateM.bind]
  cases ran : walk start with
  | error failure after =>
    rw [ran] at kept
    exact ⟨kept.1, by rw [List.head?_append, kept.2, Option.some_or]⟩
  | ok result between =>
    rw [ran] at kept
    obtain ⟨same, rfl⟩ := kept
    exact (second result between).imp fun _ further => further.trans same

/-- A walk behind one that comes to no fault. -/
theorem behind (first : Keeps part [] walk)
    (second : ∀ result, Keeps part further (next result)) :
    Keeps part further (walk >>= next) := bind first second

/-- A walk before one that comes to no fault. -/
theorem before (first : Keeps part faults walk)
    (second : ∀ result, Keeps part [] (next result)) : Keeps part faults (walk >>= next) := by
  have both := bind first second
  rwa [List.append_nil] at both

/-- A choice. -/
theorem ite {condition : Prop} [Decidable condition] {other : LayeredInferrer α}
    (positive : Keeps part faults walk) (negative : Keeps part faults other) :
    Keeps part faults (if condition then walk else other) := by
  split
  · exact positive
  · exact negative

/-- A walk in a layer of its own keeps all layers when it keeps those around its own. -/
theorem inNewLayer (keeps : Keeps Layers.outer faults walk) :
    Keeps id faults (inNewLayer walk) := by
  intro start
  have kept := keeps { start with layers := start.layers.enter }
  have back {after : LayeredInference} (same : after.layers.outer = start.layers.enter.outer) :
      after.layers.leave = start.layers := by
    rw [Layers.leave, same]
    rfl
  rw [run_inNewLayer]
  cases ran : walk { start with layers := start.layers.enter } with
  | ok result after =>
    rw [ran] at kept
    exact ⟨back kept.1, kept.2⟩
  | error failure after =>
    rw [ran] at kept
    exact ⟨back kept.1, kept.2⟩

end Keeps

/-! ## Walks that leave the names alone -/

/-- A walk that neither binds a name nor adds the type of a parameter. -/
def Calm (plain : Inferrer α) : Prop :=
  ∀ inference, (plain.run inference).2.environment = inference.environment ∧
    (plain.run inference).2.undetermined = inference.undetermined

namespace Calm

variable {plain other : Inferrer α} {following : α → Inferrer β}

/-- A walk that changes nothing but the store and the problems. -/
theorem pure (result : α) : Calm (pure result) := fun _ => ⟨rfl, rfl⟩

/-- A computation on the store. -/
theorem solve (solver : Solver α) : Calm (solve solver) := fun _ => ⟨rfl, rfl⟩

/-- Recording problems. -/
theorem report (problems : List Problem) (offset : Int) : Calm (report problems offset) :=
  fun _ => ⟨rfl, rfl⟩

/-- Two walks, one after the other. -/
theorem bind (first : Calm plain) (second : ∀ result, Calm (following result)) :
    Calm (plain >>= following) := by
  intro inference
  obtain ⟨environment, undetermined⟩ := first inference
  obtain ⟨further, also⟩ := second (plain.run inference).1 (plain.run inference).2
  exact ⟨further.trans environment, also.trans undetermined⟩

/-- A choice. -/
theorem ite {condition : Prop} [Decidable condition] (positive : Calm plain)
    (negative : Calm other) : Calm (if condition then plain else other) := by
  split
  · exact positive
  · exact negative

/-- A new type variable. -/
theorem freshVariable : Calm freshVariable := .bind (.solve _) fun _ => .pure _

/-- Unifying two types. -/
theorem unify (left right : Ty) (offset : Int) : Calm (unify left right offset) :=
  .bind (.solve _) fun _ => .bind (.report _ _) fun _ => .pure _

/-- The type of a use of a name. -/
theorem lookup (name : String) : Calm (lookup name) := by
  intro inference
  rw [lookup_eq]
  cases inference.environment.lookup name with
  | none => exact freshVariable inference
  | some type => exact ⟨rfl, rfl⟩

/-- Whether a type is the primitive of strings. -/
theorem isString (type : Ty) : Calm (isString type) := by
  refine .bind (.solve _) fun head => ?_
  split <;> exact .pure _

/-- The type of a sum. -/
theorem sumType (left right : Ty) (leftOffset rightOffset offset : Int) (operator : String) :
    Calm (sumType left right leftOffset rightOffset offset operator) := by
  have textual : Calm (do if ← Inferrer.isString left then Pure.pure true else
      Inferrer.isString right) :=
    .bind (isString left) fun _ => .ite (.pure true) (isString right)
  rw [sumType_eq]
  refine .bind textual fun _ => .ite ?_ ?_
  · exact .bind (.unify _ _ _) fun _ => .bind (.unify _ _ _) fun _ => .pure _
  · refine .bind (.solve _) fun operand => .bind (.unify _ _ _) fun leftFits =>
      .bind (.unify _ _ _) fun rightFits => .bind (.solve _) fun reached => ?_
    unfold settleSum
    split
    · exact .bind (.solve _) fun _ => .pure _
    · exact .pure _
    · exact .pure _
    · exact .ite (.bind (.solve _) fun _ => .bind (.report _ _) fun _ => .freshVariable)
        .freshVariable

/-- The arguments of a call. -/
theorem passArguments (params : List Ty) (arguments : List (Expression × Ty)) :
    Calm (passArguments params arguments) := by
  induction params generalizing arguments with
  | nil => exact .pure ()
  | cons param params inductionHypothesis =>
    cases arguments with
    | nil => exact .pure ()
    | cons argument arguments =>
      exact .bind (.unify _ _ _) fun _ => inductionHypothesis arguments

/-- The type of a call. -/
theorem callType (callee : Ty) (arguments : List (Expression × Ty)) (offset : Int) :
    Calm (callType callee arguments offset) := by
  unfold Inferrer.callType
  split
  · exact .bind .freshVariable fun _ => .bind (.unify _ _ _) fun _ => .pure _
  · exact .ite (.bind (.report _ _) fun _ => .freshVariable)
      (.bind (passArguments _ _) fun _ => .pure _)
  · exact .bind (.solve _) fun _ => .bind (.report _ _) fun _ => .freshVariable

end Calm

/-! ## Walks that hand on their names -/

/-- A walk with layers does what a walk with one list of names does: it does not fail, gives the
same answer in another form, and leaves the same knowledge behind. -/
def Follows (answer : β → α) (walk : LayeredInferrer α) (plain : Inferrer β) : Prop :=
  ∀ start : LayeredInference, ∃ after : LayeredInference,
    walk start = .ok (answer (plain.run start.flat).1) after ∧
      after.flat = (plain.run start.flat).2

namespace Follows

variable {δ : Type} {answer : β → α} {plain : Inferrer β}

/-- A result. -/
theorem pure (result : β) : Follows answer (pure (answer result)) (pure result) :=
  fun start => ⟨start, rfl, rfl⟩

/-- A step. -/
theorem step {plain : Inferrer α} (calm : Calm plain) : Follows id (step plain) plain := by
  intro start
  obtain ⟨environment, undetermined⟩ := calm start.flat
  refine ⟨_, rfl, ?_⟩
  change Inference.mk _ _ start.flat.environment start.flat.undetermined = _
  rw [← environment, ← undetermined]
  rfl

/-- A name is bound in the layer in use. -/
theorem bound (name : String) (type : Ty) :
    Follows id (rearrange (Layers.bind · name type)) (Inferrer.bind name type) :=
  fun _ => ⟨_, rfl, rfl⟩

/-- The type of a parameter is added to the layer in use. -/
theorem held (type : Ty) :
    Follows id (rearrange (Layers.hold · type)) (modify fun inference =>
      { inference with undetermined := inference.undetermined ++ [type] }) :=
  fun _ => ⟨_, rfl, rfl⟩

/-- Two walks, one after the other. -/
theorem bind {later : δ → γ} {next : α → LayeredInferrer γ} {following : β → Inferrer δ}
    (first : Follows answer walk plain)
    (second : ∀ result, Follows later (next (answer result)) (following result)) :
    Follows later (walk >>= next) (plain >>= following) := by
  intro start
  obtain ⟨between, ran, same⟩ := first start
  obtain ⟨after, nextRan, nextSame⟩ := second (plain.run start.flat).1 between
  rw [same] at nextRan nextSame
  refine ⟨after, ?_, nextSame⟩
  change EStateM.bind walk next start = _
  rw [EStateM.bind, ran]
  exact nextRan

/-- A walk whose answer is given in another form. -/
theorem reshaped {later : β → γ} {next : α → LayeredInferrer γ}
    (follows : Follows answer walk plain)
    (same : ∀ result, next (answer result) = Pure.pure (later result)) :
    Follows later (walk >>= next) plain := by
  intro start
  obtain ⟨after, ran, flat⟩ := follows start
  refine ⟨after, ?_, flat⟩
  change EStateM.bind walk next start = _
  rw [EStateM.bind, ran]
  exact congrFun (same (plain.run start.flat).1) after

/-- A choice. -/
theorem ite {condition : Prop} [Decidable condition] {other : LayeredInferrer α}
    {alternative : Inferrer β} (positive : Follows answer walk plain)
    (negative : Follows answer other alternative) :
    Follows answer (if condition then walk else other)
      (if condition then plain else alternative) := by
  split
  · exact positive
  · exact negative

/-- A layer of its own does what a scope of its own does, since the layers around it are
kept. -/
theorem inNewLayer (keeps : Keeps Layers.outer faults walk)
    (follows : Follows answer walk plain) :
    Follows answer (inNewLayer walk) (inNewScope plain) := by
  intro start
  have kept := keeps.inNewLayer start
  obtain ⟨after, ran, same⟩ := follows { start with layers := start.layers.enter }
  rw [run_inNewLayer, ran] at kept ⊢
  refine ⟨_, rfl, ?_⟩
  have layers : after.layers.leave = start.layers := kept.1
  change Inference.mk after.flat.store after.flat.diagnostics after.layers.leave.environment
    after.layers.leave.innermost.undetermined = _
  rw [layers, same]
  rfl

end Follows

end LayeredInferrer

end ArrowScript
