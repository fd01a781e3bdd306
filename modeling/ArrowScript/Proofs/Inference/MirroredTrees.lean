import ArrowScript.Proofs.Inference.Bodies
import ArrowScript.Proofs.Inference.Mirroring
import ArrowScript.Proofs.Scope.Events

/-!
# Trees in states that mirror each other

Two walks over the same tree fill in types that correspond, when the names that are used in it
are visible. The two trees are then the same up to the exchange of the variables, at every
depth and in all later stores.
-/

namespace ArrowScript

/-! ## Changing types twice -/

mutual

/-- Changing the types in an expression twice. -/
theorem Expression.mapTypes_mapTypes (change other : Ty → Ty) (expression : Expression) :
    (expression.mapTypes change).mapTypes other = expression.mapTypes (other ∘ change) := by
  match expression with
  | .number _ _ | .string _ _ | .boolean _ _ | .identifier _ => rfl
  | .array offset elements =>
    exact congrArg (Expression.array offset) (Expression.mapTypesAll_mapTypesAll change other elements)
  | .member offset object index =>
    exact congrArg₂ (Expression.member offset) (Expression.mapTypes_mapTypes change other object)
      (Expression.mapTypes_mapTypes change other index)
  | .binary offset left operator right =>
    exact congrArg₂ (Expression.binary offset · operator ·)
      (Expression.mapTypes_mapTypes change other left)
      (Expression.mapTypes_mapTypes change other right)
  | .conditional offset test consequent alternate =>
    simp only [Expression.mapTypes, Expression.mapTypes_mapTypes change other test,
      Expression.mapTypes_mapTypes change other consequent,
      Expression.mapTypes_mapTypes change other alternate]
  | .arrow offset params result { offset := opening, statements } =>
    exact congrArg (fun inner => Expression.arrow offset params result ⟨opening, inner⟩)
      (Statement.mapTypesAll_mapTypesAll change other statements)
  | .call offset callee arguments =>
    exact congrArg₂ (Expression.call offset) (Expression.mapTypes_mapTypes change other callee)
      (Expression.mapTypesAll_mapTypesAll change other arguments)

/-- Changing the types in several expressions twice. -/
theorem Expression.mapTypesAll_mapTypesAll (change other : Ty → Ty)
    (expressions : List Expression) :
    Expression.mapTypesAll other (Expression.mapTypesAll change expressions) =
      Expression.mapTypesAll (other ∘ change) expressions := by
  match expressions with
  | [] => rfl
  | first :: rest =>
    exact congrArg₂ List.cons (Expression.mapTypes_mapTypes change other first)
      (Expression.mapTypesAll_mapTypesAll change other rest)

/-- Changing the types in a statement twice. -/
theorem Statement.mapTypes_mapTypes (change other : Ty → Ty) (statement : Statement) :
    (statement.mapTypes change).mapTypes other = statement.mapTypes (other ∘ change) := by
  match statement with
  | .constant offset id ascription initial inferred =>
    exact congrArg₂ (Statement.constant offset id ascription · ·)
      (Expression.mapTypes_mapTypes change other initial) (Option.map_map other change inferred)
  | .returning offset none inferred =>
    exact congrArg (Statement.returning offset none ·) (Option.map_map other change inferred)
  | .returning offset (some argument) inferred =>
    exact congrArg₂ (fun argument inferred => Statement.returning offset (some argument) inferred)
      (Expression.mapTypes_mapTypes change other argument) (Option.map_map other change inferred)

/-- Changing the types in several statements twice. -/
theorem Statement.mapTypesAll_mapTypesAll (change other : Ty → Ty)
    (statements : List Statement) :
    Statement.mapTypesAll other (Statement.mapTypesAll change statements) =
      Statement.mapTypesAll (other ∘ change) statements := by
  match statements with
  | [] => rfl
  | first :: rest =>
    exact congrArg₂ List.cons (Statement.mapTypes_mapTypes change other first)
      (Statement.mapTypesAll_mapTypesAll change other rest)

end

namespace Inferrer

open Store

variable {exchange : VariableId → VariableId} {visible : String → Prop} {one other : Inference}
  {type image : Ty}

/-! ## Trees that correspond -/

/-- Two trees that are the same, with types in them that correspond: they are the same when
the types are resolved, in all later stores. -/
def Filled {α : Type} (exchange : VariableId → VariableId) (mapTypes : (Ty → Ty) → α → α) :
    Relation α := fun one other tree otherTree =>
  ∀ ⦃oneAfter otherAfter : Store⦄, Advance exchange one other oneAfter otherAfter →
    mapTypes otherAfter.resolve otherTree =
      mapTypes (fun type => (oneAfter.resolve type).rename exchange) tree

/-- Trees stay the same in all later stores. -/
theorem Filled.onward {α : Type} {mapTypes : (Ty → Ty) → α → α}
    {before otherBefore after otherAfter : Store} {tree otherTree : α}
    (filled : Filled exchange mapTypes before otherBefore tree otherTree)
    (advance : Advance exchange before otherBefore after otherAfter) :
    Filled exchange mapTypes after otherAfter tree otherTree :=
  fun _ _ later => filled (advance.trans later)

/-- Trees that are the same now, with their types resolved, are so in all later stores. -/
theorem Filled.of_eq {α : Type} {mapTypes : (Ty → Ty) → α → α}
    {one other : Store} {tree otherTree : α}
    (twice : ∀ change another tree,
      mapTypes another (mapTypes change tree) = mapTypes (another ∘ change) tree)
    (same : mapTypes other.resolve otherTree =
      mapTypes (fun type => (one.resolve type).rename exchange) tree) :
    Filled exchange mapTypes one other tree otherTree := by
  intro oneAfter otherAfter advance
  have otherOnward : otherAfter.resolve ∘ other.resolve = otherAfter.resolve :=
    funext advance.otherRefines.resolve_resolve
  have onward : (otherAfter.resolve ∘ fun type => (one.resolve type).rename exchange) =
      fun type => (oneAfter.resolve type).rename exchange := by
    funext type
    rw [Function.comp_apply, advance.mirrors.resolve_eq, advance.refines.resolve_resolve]
  calc mapTypes otherAfter.resolve otherTree
      = mapTypes otherAfter.resolve (mapTypes other.resolve otherTree) := by
        rw [twice, otherOnward]
    _ = mapTypes (fun type => (oneAfter.resolve type).rename exchange) tree := by
        rw [same, twice, onward]

/-- Two expressions or statements that correspond, each with its type. -/
def TypedImage {α : Type} (exchange : VariableId → VariableId) (mapTypes : (Ty → Ty) → α → α) :
    Relation (α × Ty) := fun one other typed otherTyped =>
  Filled exchange mapTypes one other typed.1 otherTyped.1 ∧
    Image exchange one other typed.2 otherTyped.2

/-- Several of them. -/
def AllTyped {α : Type} (exchange : VariableId → VariableId) (mapTypes : (Ty → Ty) → α → α) :
    Relation (List (α × Ty)) := fun one other =>
  List.Forall₂ (TypedImage exchange mapTypes one other)

/-- Changing types keeps the offset of an expression. -/
theorem offset_mapTypes (change : Ty → Ty) (expression : Expression) :
    (expression.mapTypes change).offset = expression.offset := by
  cases expression with
  | arrow _ _ _ body =>
    cases body
    rfl
  | _ => rfl

/-- Expressions that correspond have the same offset. -/
theorem Filled.offset_eq {before otherBefore : Store} {tree otherTree : Expression}
    (filled : Filled exchange Expression.mapTypes before otherBefore tree otherTree)
    (mirrors : Mirrors exchange before otherBefore) : otherTree.offset = tree.offset := by
  have same := congrArg Expression.offset (filled (.refl mirrors))
  rwa [offset_mapTypes, offset_mapTypes] at same

/-- Statements that correspond are of the same kind. -/
theorem Filled.isReturn_eq {before otherBefore : Store} {tree otherTree : Statement}
    (filled : Filled exchange Statement.mapTypes before otherBefore tree otherTree)
    (mirrors : Mirrors exchange before otherBefore) : otherTree.isReturn = tree.isReturn := by
  have same := congrArg Statement.isReturn (filled (.refl mirrors))
  rwa [isReturn_mapTypes, isReturn_mapTypes] at same

/-- Typed trees that correspond do so in all later stores. -/
theorem AllTyped.onward {α : Type} {mapTypes : (Ty → Ty) → α → α}
    {before otherBefore after otherAfter : Store} {typed otherTyped : List (α × Ty)}
    (same : AllTyped exchange mapTypes before otherBefore typed otherTyped)
    (advance : Advance exchange before otherBefore after otherAfter) :
    AllTyped exchange mapTypes after otherAfter typed otherTyped :=
  same.imp fun _ _ both => ⟨both.1.onward advance, both.2.onward advance⟩

/-- The types of typed trees that correspond. -/
theorem AllTyped.types {α : Type} {mapTypes : (Ty → Ty) → α → α} {before otherBefore : Store}
    {typed otherTyped : List (α × Ty)}
    (same : AllTyped exchange mapTypes before otherBefore typed otherTyped) :
    List.Forall₂ (Image exchange before otherBefore) (typed.map (·.2)) (otherTyped.map (·.2)) :=
  List.forall₂_map_left_iff.mpr (List.forall₂_map_right_iff.mpr (same.imp fun _ _ both => both.2))

/-- The trees among typed trees that correspond. -/
theorem AllTyped.trees {α : Type} {mapTypes : (Ty → Ty) → α → α} {before otherBefore : Store}
    {typed otherTyped : List (α × Ty)}
    (same : AllTyped exchange mapTypes before otherBefore typed otherTyped) :
    Filled exchange (fun change => List.map (mapTypes change)) before otherBefore
      (typed.map (·.1)) (otherTyped.map (·.1)) := by
  intro oneAfter otherAfter later
  induction same with
  | nil => rfl
  | cons first _ inductionHypothesis =>
    exact congrArg₂ List.cons (first.1 later) inductionHypothesis

/-- Arguments that correspond are passed to parameters that do. -/
theorem passArguments_mirrored {params paramImages : List Ty}
    {arguments otherArguments : List (Expression × Ty)}
    (paramsSame : List.Forall₂ (Image exchange one.store other.store) params paramImages)
    (argumentsSame : AllTyped exchange Expression.mapTypes one.store other.store arguments
      otherArguments) :
    Mirrored exchange visible Same (passArguments params arguments)
      (passArguments paramImages otherArguments) one other := by
  induction params generalizing one other paramImages arguments otherArguments with
  | nil =>
    cases paramsSame
    exact .pure rfl
  | cons param params inductionHypothesis =>
    cases paramsSame with
    | cons paramSame paramsSame =>
      cases argumentsSame with
      | nil => exact .pure rfl
      | @cons argument otherArgument _ _ argumentSame argumentsSame =>
        obtain ⟨argument, type⟩ := argument
        obtain ⟨otherArgument, otherType⟩ := otherArgument
        apply Mirrored.given
        intro mirrors
        have place := argumentSame.1.offset_eq mirrors.stores
        apply Mirrored.bind (unify_mirrored paramSame argumentSame.2 place)
        intro _ _ _ _ first _
        exact inductionHypothesis (forall_onward paramsSame first)
          (AllTyped.onward argumentsSame first)

/-- The type of a call. -/
theorem callType_mirrored {callee calleeImage : Ty}
    {arguments otherArguments : List (Expression × Ty)}
    (form : SameForm exchange one.store other.store callee calleeImage)
    (argumentsSame : AllTyped exchange Expression.mapTypes one.store other.store arguments
      otherArguments) (offset : Int) :
    Mirrored exchange visible (Image exchange) (callType callee arguments offset)
      (callType calleeImage otherArguments offset) one other := by
  apply Mirrored.given
  intro mirrors
  have calleeSame := form.same mirrors.stores
  have refused : Mirrored exchange visible (Image exchange)
      (do
        let provided ← solve (Solver.print callee)
        report [.notCallable provided] offset
        freshVariable)
      (do
        let provided ← solve (Solver.print calleeImage)
        report [.notCallable provided] offset
        freshVariable) one other := by
    apply Mirrored.bind (print_mirrored calleeSame)
    intro text otherText _ _ _ _
    have code : (Problem.notCallable text).code = (Problem.notCallable otherText).code := rfl
    exact refuse_mirrored code offset
  cases form with
  | var inside =>
    apply Mirrored.bind freshVariable_mirrored
    intro result otherResult _ _ first resultSame
    have typesSame := AllTyped.types (argumentsSame.onward first)
    have functionSame := Image.function typesSame resultSame
    apply Mirrored.bind (unify_mirrored (calleeSame.onward first) functionSame rfl)
    intro _ _ _ _ second _
    exact .pure (resultSame.onward second)
  | function paramsSame same =>
    rw [callType, callType, ← paramsSame.length_eq, ← List.Forall₂.length_eq argumentsSame]
    split
    · exact refuse_mirrored rfl offset
    · apply Mirrored.bind (passArguments_mirrored paramsSame argumentsSame)
      intro _ _ _ _ first _
      exact .pure (same.onward first)
  | primitive kind => exact refused
  | array same => exact refused

/-- The types that a body returns. -/
theorem returnedType_mirrored {body otherBody : List (Statement × Ty)} {before otherBefore : Store}
    (mirrors : Mirrors exchange before otherBefore)
    (same : AllTyped exchange Statement.mapTypes before otherBefore body otherBody) :
    Image exchange before otherBefore (returnedType body) (returnedType otherBody) := by
  induction same with
  | nil => exact .primitive .void
  | @cons first otherFirst _ _ firstSame _ inductionHypothesis =>
    rw [returnedType, returnedType, List.find?_cons, List.find?_cons,
      firstSame.1.isReturn_eq mirrors]
    cases first.1.isReturn with
    | true => exact firstSame.2
    | false => exact inductionHypothesis

/-- The type of a function. -/
theorem functionType_mirrored {params images : List Ty} {body otherBody : List (Statement × Ty)}
    (paramsSame : List.Forall₂ (Image exchange one.store other.store) params images)
    (bodySame : AllTyped exchange Statement.mapTypes one.store other.store body otherBody)
    (result : Option Ascription) (offset : Int) :
    Mirrored exchange visible (Image exchange) (functionType params body result offset)
      (functionType images otherBody result offset) one other := by
  apply Mirrored.given
  intro mirrors
  have returnedSame := returnedType_mirrored mirrors.stores bodySame
  cases result with
  | none => exact .pure (.function paramsSame returnedSame)
  | some written =>
    apply Mirrored.bind (ascriptionType_mirrored written one other)
    intro annotated otherAnnotated _ _ first annotatedSame
    apply Mirrored.bind (unify_mirrored (returnedSame.onward first) annotatedSame rfl)
    intro _ _ _ _ second _
    have paramsSame := forall_onward (forall_onward paramsSame first) second
    exact .pure (.function paramsSame (annotatedSame.onward second))

/-- A scope of its own. -/
theorem inNewScope_mirrored {α : Type} {related : Relation α} {walk otherWalk : Inferrer α}
    (walks : Mirrored exchange visible related walk otherWalk one other) :
    Mirrored exchange visible related (inNewScope walk) (inNewScope otherWalk) one other := by
  intro mirrors
  obtain ⟨advance, same⟩ := walks mirrors
  have outer := mirrors.onward advance.stores
  exact ⟨⟨advance.stores, ⟨outer.stores, outer.names, outer.undetermined⟩, advance.findings⟩, same⟩

/-! ## Trees -/

section Parts

variable {before otherBefore : Store} {left right otherLeft otherRight test otherTest first
  otherFirst : Expression} {expressions otherExpressions : List Expression}
  {statements otherStatements : List Statement}

theorem Filled.cons (firstSame : Filled exchange Expression.mapTypes before otherBefore first
      otherFirst)
    (restSame : Filled exchange Expression.mapTypesAll before otherBefore expressions
      otherExpressions) :
    Filled exchange Expression.mapTypesAll before otherBefore (first :: expressions)
      (otherFirst :: otherExpressions) :=
  fun _ _ later => congrArg₂ List.cons (firstSame later) (restSame later)

theorem Filled.array (offset : Int)
    (same : Filled exchange Expression.mapTypesAll before otherBefore expressions
      otherExpressions) :
    Filled exchange Expression.mapTypes before otherBefore (.array offset expressions)
      (.array offset otherExpressions) :=
  fun _ _ later => congrArg (Expression.array offset) (same later)

theorem Filled.member (offset : Int)
    (leftSame : Filled exchange Expression.mapTypes before otherBefore left otherLeft)
    (rightSame : Filled exchange Expression.mapTypes before otherBefore right otherRight) :
    Filled exchange Expression.mapTypes before otherBefore (.member offset left right)
      (.member offset otherLeft otherRight) :=
  fun _ _ later => congrArg₂ (Expression.member offset) (leftSame later) (rightSame later)

theorem Filled.binary (offset : Int) (operator : String)
    (leftSame : Filled exchange Expression.mapTypes before otherBefore left otherLeft)
    (rightSame : Filled exchange Expression.mapTypes before otherBefore right otherRight) :
    Filled exchange Expression.mapTypes before otherBefore (.binary offset left operator right)
      (.binary offset otherLeft operator otherRight) :=
  fun _ _ later =>
    congrArg₂ (Expression.binary offset · operator ·) (leftSame later) (rightSame later)

theorem Filled.conditional (offset : Int)
    (testSame : Filled exchange Expression.mapTypes before otherBefore test otherTest)
    (leftSame : Filled exchange Expression.mapTypes before otherBefore left otherLeft)
    (rightSame : Filled exchange Expression.mapTypes before otherBefore right otherRight) :
    Filled exchange Expression.mapTypes before otherBefore (.conditional offset test left right)
      (.conditional offset otherTest otherLeft otherRight) := by
  intro _ _ later
  rw [Expression.mapTypes, Expression.mapTypes, testSame later, leftSame later, rightSame later]

theorem Filled.arrow (offset opening : Int) (params : List Parameter) (result : Option Ascription)
    (same : Filled exchange Statement.mapTypesAll before otherBefore statements
      otherStatements) :
    Filled exchange Expression.mapTypes before otherBefore
      (.arrow offset params result { offset := opening, statements })
      (.arrow offset params result { offset := opening, statements := otherStatements }) := by
  intro _ _ later
  rw [Expression.mapTypes, Expression.mapTypes, same later]

theorem Filled.call (offset : Int)
    (calleeSame : Filled exchange Expression.mapTypes before otherBefore first otherFirst)
    (argumentsSame : Filled exchange Expression.mapTypesAll before otherBefore expressions
      otherExpressions) :
    Filled exchange Expression.mapTypes before otherBefore (.call offset first expressions)
      (.call offset otherFirst otherExpressions) :=
  fun _ _ later => congrArg₂ (Expression.call offset) (calleeSame later) (argumentsSame later)

theorem Filled.constant (offset : Int) (id : Identifier) (ascription : Option Ascription)
    {type image : Ty}
    (initialSame : Filled exchange Expression.mapTypes before otherBefore first otherFirst)
    (same : Image exchange before otherBefore type image) :
    Filled exchange Statement.mapTypes before otherBefore
      (.constant offset id ascription first (some type))
      (.constant offset id ascription otherFirst (some image)) := by
  intro _ _ later
  rw [Statement.mapTypes, Statement.mapTypes, initialSame later, Option.map_some, Option.map_some,
    (same.onward later).resolve_eq]

theorem Filled.returning (offset : Int) {type image : Ty}
    (argumentSame : Filled exchange Expression.mapTypes before otherBefore first otherFirst)
    (same : Image exchange before otherBefore type image) :
    Filled exchange Statement.mapTypes before otherBefore
      (.returning offset (some first) (some type))
      (.returning offset (some otherFirst) (some image)) := by
  intro _ _ later
  rw [Statement.mapTypes, Statement.mapTypes, argumentSame later, Option.map_some,
    Option.map_some, (same.onward later).resolve_eq]

end Parts

/-- Changing the types in several expressions. -/
theorem expressions_mapTypesAll (change : Ty → Ty) (expressions : List Expression) :
    Expression.mapTypesAll change expressions = expressions.map (Expression.mapTypes change) := by
  induction expressions with
  | nil => rfl
  | cons first rest inductionHypothesis =>
    rw [Expression.mapTypesAll, inductionHypothesis, List.map_cons]

/-- Several expressions correspond when each does. -/
theorem AllTyped.expressions {before otherBefore : Store}
    {typed otherTyped : List (Expression × Ty)}
    (same : AllTyped exchange Expression.mapTypes before otherBefore typed otherTyped) :
    Filled exchange Expression.mapTypesAll before otherBefore (typed.map (·.1))
      (otherTyped.map (·.1)) := by
  intro _ _ later
  rw [expressions_mapTypesAll, expressions_mapTypesAll]
  exact same.trees later

/-- Several statements correspond when each does. -/
theorem AllTyped.statements {before otherBefore : Store}
    {typed otherTyped : List (Statement × Ty)}
    (same : AllTyped exchange Statement.mapTypes before otherBefore typed otherTyped) :
    Filled exchange Statement.mapTypesAll before otherBefore (typed.map (·.1))
      (otherTyped.map (·.1)) := by
  intro _ _ later
  rw [mapTypesAll_eq_map, mapTypesAll_eq_map]
  exact same.trees later

/-- A statement that corresponds to another, as a list. -/
theorem Filled.statement {one other : Store} {tree otherTree : Statement}
    (filled : Filled exchange Statement.mapTypes one other tree otherTree) :
    Filled exchange Statement.mapTypesAll one other [tree] [otherTree] :=
  fun _ _ later => congrArg ([·]) (filled later)

/-- Statements that correspond, one list behind the other. -/
theorem Filled.append {one other : Store} {trees otherTrees more otherMore : List Statement}
    (filled : Filled exchange Statement.mapTypesAll one other trees otherTrees)
    (further : Filled exchange Statement.mapTypesAll one other more otherMore) :
    Filled exchange Statement.mapTypesAll one other (trees ++ more) (otherTrees ++ otherMore) := by
  intro oneAfter otherAfter later
  rw [mapTypesAll_append, mapTypesAll_append, filled later, further later]

/-- The end of the walk over a constant declaration. -/
theorem bindConstant_mirrored (offset : Int) (id : Identifier) (ascription : Option Ascription)
    {initial otherInitial : Expression}
    (initialSame : Filled exchange Expression.mapTypes one.store other.store initial otherInitial)
    (same : Image exchange one.store other.store type image) :
    Mirrored exchange visible (TypedImage exchange Statement.mapTypes)
      (do
        bind id.name type
        return (.constant offset id ascription initial (some type), type))
      (do
        bind id.name image
        return (.constant offset id ascription otherInitial (some image), image)) one other := by
  apply Mirrored.bind (bind_mirrored id.name same)
  intro _ _ _ _ first _
  have same := same.onward first
  exact .pure ⟨(initialSame.onward first).constant offset id ascription same, same⟩

mutual

/-- The walk over an expression whose names are visible. -/
theorem inferExpression_mirrored (expression : Expression)
    (seen : ∀ use ∈ expression.uses, visible use.name) (one other : Inference) :
    Mirrored exchange visible (TypedImage exchange Expression.mapTypes)
      (inferExpression expression) (inferExpression expression) one other := by
  match expression with
  | .number offset value =>
    have numeral : Image exchange one.store other.store (numeralType value) (numeralType value) := by
      rw [numeralType]
      split <;> exact .primitive _
    exact .pure ⟨fun _ _ _ => rfl, numeral⟩
  | .string _ _ => exact .pure ⟨fun _ _ _ => rfl, .primitive .string⟩
  | .boolean _ _ => exact .pure ⟨fun _ _ _ => rfl, .primitive .bool⟩
  | .identifier identifier =>
    apply Mirrored.bind (lookup_mirrored (seen identifier (.head _)))
    exact fun _ _ _ _ _ same => .pure ⟨fun _ _ _ => rfl, same⟩
  | .array offset [] =>
    apply Mirrored.bind freshVariable_mirrored
    exact fun _ _ _ _ _ same => .pure ⟨fun _ _ _ => rfl, same.array⟩
  | .array offset (first :: rest) =>
    obtain ⟨firstSeen, restSeen⟩ := List.forall_mem_append.mp seen
    apply Mirrored.bind (inferExpression_mirrored first firstSeen one other)
    rintro ⟨first, element⟩ ⟨otherFirst, otherElement⟩ _ _ _ ⟨firstSame, elementSame⟩
    apply Mirrored.bind (inferElements_mirrored elementSame rest restSeen)
    intro rest otherRest _ _ second restSame
    exact .pure ⟨.array offset ((firstSame.onward second).cons restSame),
      (elementSame.onward second).array⟩
  | .member offset object index =>
    obtain ⟨objectSeen, indexSeen⟩ := List.forall_mem_append.mp seen
    apply Mirrored.bind (inferExpression_mirrored object objectSeen one other)
    rintro ⟨object, objectType⟩ ⟨otherObject, otherObjectType⟩ _ _ _ ⟨objectSame, objectTypeSame⟩
    apply Mirrored.bind (inferExpression_mirrored index indexSeen _ _)
    rintro ⟨index, indexType⟩ ⟨otherIndex, otherIndexType⟩ _ _ first ⟨indexSame, indexTypeSame⟩
    have objectSame := objectSame.onward first
    have objectOffset := objectSame.offset_eq first.mirrors
    have indexOffset := indexSame.offset_eq first.mirrors
    apply Mirrored.bind (unify_mirrored indexTypeSame (.primitive .number) indexOffset)
    intro _ _ _ _ second _
    apply Mirrored.bind freshVariable_mirrored
    intro element otherElement _ _ third elementSame
    have objectTypeSame := ((objectTypeSame.onward first).onward second).onward third
    apply Mirrored.bind (unify_mirrored objectTypeSame elementSame.array objectOffset)
    intro _ _ _ _ fourth _
    have onward := (second.trans third).trans fourth
    exact .pure ⟨.member offset (objectSame.onward onward) (indexSame.onward onward),
      elementSame.onward fourth⟩
  | .binary offset left operator right =>
    obtain ⟨leftSeen, rightSeen⟩ := List.forall_mem_append.mp seen
    apply Mirrored.bind (inferExpression_mirrored left leftSeen one other)
    rintro ⟨left, leftType⟩ ⟨otherLeft, otherLeftType⟩ _ _ _ ⟨leftSame, leftTypeSame⟩
    apply Mirrored.bind (inferExpression_mirrored right rightSeen _ _)
    rintro ⟨right, rightType⟩ ⟨otherRight, otherRightType⟩ _ _ first ⟨rightSame, rightTypeSame⟩
    have leftSame := leftSame.onward first
    have leftTypeSame := leftTypeSame.onward first
    have both := leftSame.binary offset operator rightSame
    by_cases sum : operator = "+"
    · simp only [if_pos sum]
      have leftOffset := leftSame.offset_eq first.mirrors
      have rightOffset := rightSame.offset_eq first.mirrors
      apply Mirrored.bind (sumType_mirrored leftTypeSame rightTypeSame leftOffset rightOffset _ _)
      exact fun _ _ _ _ second same => .pure ⟨both.onward second, same⟩
    · simp only [if_neg sum]
      apply Mirrored.bind (report_mirrored rfl offset)
      intro _ _ _ _ second _
      apply Mirrored.bind freshVariable_mirrored
      exact fun _ _ _ _ third same => .pure ⟨(both.onward second).onward third, same⟩
  | .conditional offset test consequent alternate =>
    obtain ⟨testSeen, branchesSeen⟩ := List.forall_mem_append.mp seen
    obtain ⟨consequentSeen, alternateSeen⟩ := List.forall_mem_append.mp branchesSeen
    apply Mirrored.bind (inferExpression_mirrored test testSeen one other)
    rintro ⟨test, testType⟩ ⟨otherTest, otherTestType⟩ _ _ start ⟨testSame, testTypeSame⟩
    have testOffset := testSame.offset_eq start.mirrors
    apply Mirrored.bind (unify_mirrored testTypeSame (.primitive .bool) testOffset)
    intro _ _ _ _ first _
    apply Mirrored.bind (inferExpression_mirrored consequent consequentSeen _ _)
    rintro ⟨consequent, left⟩ ⟨otherConsequent, otherLeft⟩ _ _ second ⟨consequentSame, leftSame⟩
    have consequentOffset := consequentSame.offset_eq second.mirrors
    apply Mirrored.bind (inferExpression_mirrored alternate alternateSeen _ _)
    rintro ⟨alternate, right⟩ ⟨otherAlternate, otherRight⟩ _ _ third ⟨alternateSame, rightSame⟩
    have alternateOffset := alternateSame.offset_eq third.mirrors
    apply Mirrored.bind freshVariable_mirrored
    intro result otherResult _ _ fourth resultSame
    have leftSame := (leftSame.onward third).onward fourth
    apply Mirrored.bind (unify_mirrored leftSame resultSame consequentOffset)
    intro _ _ _ _ fifth _
    have resultSame := resultSame.onward fifth
    have rightSame := (rightSame.onward fourth).onward fifth
    apply Mirrored.bind (unify_mirrored rightSame resultSame alternateOffset)
    intro _ _ _ _ sixth _
    have onward := (fourth.trans fifth).trans sixth
    have testSame := ((testSame.onward first).onward second).onward third
    have consequentSame := consequentSame.onward third
    exact .pure ⟨(testSame.onward onward).conditional offset (consequentSame.onward onward)
      (alternateSame.onward onward), resultSame.onward sixth⟩
  | .arrow offset params result { offset := opening, statements } =>
    apply inNewScope_mirrored
    apply Mirrored.bind (bindParameters_mirrored params one other)
    intro types images _ _ _ typesSame
    apply Mirrored.bind (inferStatements_mirrored statements seen _ _)
    intro body otherBody _ _ first bodySame
    apply Mirrored.bind (functionType_mirrored (forall_onward typesSame first) bodySame result offset)
    intro type image _ _ second same
    exact .pure ⟨.arrow offset opening params result (bodySame.onward second).statements, same⟩
  | .call offset callee arguments =>
    obtain ⟨calleeSeen, argumentsSeen⟩ := List.forall_mem_append.mp seen
    apply Mirrored.bind (inferExpression_mirrored callee calleeSeen one other)
    rintro ⟨callee, calleeType⟩ ⟨otherCallee, otherCalleeType⟩ _ _ _ ⟨calleeSame, typeSame⟩
    apply Mirrored.bind (compress_mirrored typeSame)
    rintro reached otherReached _ _ first ⟨form, -⟩
    apply Mirrored.bind (inferArguments_mirrored arguments argumentsSeen _ _)
    intro arguments otherArguments _ _ second argumentsSame
    apply Mirrored.bind (callType_mirrored (form.onward second) argumentsSame offset)
    intro type image _ _ third same
    have calleeSame := ((calleeSame.onward first).onward second).onward third
    exact .pure ⟨calleeSame.call offset (argumentsSame.onward third).expressions, same⟩

/-- The walk over further elements of an array. -/
theorem inferElements_mirrored {one other : Inference} {element otherElement : Ty}
    (same : Image exchange one.store other.store element otherElement)
    (expressions : List Expression)
    (seen : ∀ use ∈ Expression.usesOf expressions, visible use.name) :
    Mirrored exchange visible (Filled exchange Expression.mapTypesAll)
      (inferElements element expressions) (inferElements otherElement expressions) one other := by
  match expressions with
  | [] => exact .pure fun _ _ _ => rfl
  | expression :: rest =>
    obtain ⟨firstSeen, restSeen⟩ := List.forall_mem_append.mp seen
    apply Mirrored.bind (inferExpression_mirrored expression firstSeen one other)
    rintro ⟨typed, type⟩ ⟨otherTyped, otherType⟩ _ _ first ⟨typedSame, typeSame⟩
    have place := typedSame.offset_eq first.mirrors
    apply Mirrored.bind (unify_mirrored (same.onward first) typeSame place)
    intro _ _ _ _ second _
    apply Mirrored.bind (inferElements_mirrored ((same.onward first).onward second) rest restSeen)
    intro others otherOthers _ _ third othersSame
    exact .pure (((typedSame.onward second).onward third).cons othersSame)

/-- The walk over arguments. -/
theorem inferArguments_mirrored (expressions : List Expression)
    (seen : ∀ use ∈ Expression.usesOf expressions, visible use.name) (one other : Inference) :
    Mirrored exchange visible (AllTyped exchange Expression.mapTypes)
      (inferArguments expressions) (inferArguments expressions) one other := by
  match expressions with
  | [] => exact .pure .nil
  | expression :: rest =>
    obtain ⟨firstSeen, restSeen⟩ := List.forall_mem_append.mp seen
    apply Mirrored.bind (inferExpression_mirrored expression firstSeen one other)
    intro typed otherTyped _ _ _ typedSame
    apply Mirrored.bind (inferArguments_mirrored rest restSeen _ _)
    intro others otherOthers _ _ second othersSame
    exact .pure (.cons ⟨typedSame.1.onward second, typedSame.2.onward second⟩ othersSame)

/-- The walk over a statement. -/
theorem inferStatement_mirrored (statement : Statement)
    (seen : ∀ use ∈ statement.uses, visible use.name) (one other : Inference) :
    Mirrored exchange visible (TypedImage exchange Statement.mapTypes)
      (inferStatement statement) (inferStatement statement) one other := by
  match statement with
  | .constant offset id ascription initial _ =>
    apply Mirrored.bind (inferExpression_mirrored initial seen one other)
    rintro ⟨initial, type⟩ ⟨otherInitial, otherType⟩ _ _ start ⟨initialSame, typeSame⟩
    have place := initialSame.offset_eq start.mirrors
    cases ascription with
    | none => exact bindConstant_mirrored offset id none initialSame typeSame
    | some written =>
      apply Mirrored.bind (ascriptionType_mirrored written _ _)
      intro declared otherDeclared _ _ first declaredSame
      apply Mirrored.bind (unify_mirrored (typeSame.onward first) declaredSame place)
      intro _ _ _ _ second _
      have initialSame := (initialSame.onward first).onward second
      exact bindConstant_mirrored offset id (some written) initialSame (declaredSame.onward second)
  | .returning offset none _ => exact .pure ⟨fun _ _ _ => rfl, .primitive .void⟩
  | .returning offset (some argument) _ =>
    apply Mirrored.bind (inferExpression_mirrored argument seen one other)
    rintro ⟨argument, type⟩ ⟨otherArgument, otherType⟩ _ _ _ ⟨argumentSame, typeSame⟩
    exact .pure ⟨argumentSame.returning offset typeSame, typeSame⟩

/-- The walk over several statements. -/
theorem inferStatements_mirrored (statements : List Statement)
    (seen : ∀ use ∈ Statement.usesOf statements, visible use.name) (one other : Inference) :
    Mirrored exchange visible (AllTyped exchange Statement.mapTypes)
      (inferStatements statements) (inferStatements statements) one other := by
  match statements with
  | [] => exact .pure .nil
  | statement :: rest =>
    obtain ⟨firstSeen, restSeen⟩ := List.forall_mem_append.mp seen
    apply Mirrored.bind (inferStatement_mirrored statement firstSeen one other)
    intro typed otherTyped _ _ _ typedSame
    apply Mirrored.bind (inferStatements_mirrored rest restSeen _ _)
    intro others otherOthers _ _ second othersSame
    exact .pure (.cons ⟨typedSame.1.onward second, typedSame.2.onward second⟩ othersSame)

end

end Inferrer

end ArrowScript
