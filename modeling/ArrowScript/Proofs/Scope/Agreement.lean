import ArrowScript.Proofs.Inference.Trees
import ArrowScript.Proofs.Scope.Events

/-!
# Resolution and inference agree on scopes

The name resolution keeps a tree of scopes, and the inference a list of names with their
types. Both walk over the same nodes in the same order, so their events can be compared
one by one: a name has a declaration where it is used exactly if it has a type there. If
no name is declared twice in one scope, the type is the one that was bound at the very
declaration that the use is linked to. Otherwise the two differ, since the first of two
declarations stands for the resolution and the last one for the inference.

What is kept along the walks is `Agree`: every name that has a link has a type that
belongs to it, and no other name has a type.
-/

namespace ArrowScript

namespace Inferrer

/-- An event of the inference: a use with the type under which its name is found, or a
declaration with the type that the name is bound to. -/
abbrev Event := ScopeEvent Ty Ty

/-- The events at the parameters of a function. -/
def parameterEvents : List Parameter → Inference → List Event
  | [], _ => []
  | param :: rest, inference =>
    .declared param.declarer ((parameterType param).run inference).1 ::
      parameterEvents rest ((bindParameters [param]).run inference).2

mutual

/-- The events in an expression. -/
def expressionEvents : Expression → Inference → List Event
  | .number _ _, _ | .string _ _, _ | .boolean _ _, _ | .array _ [], _ => []
  | .identifier use, inference => [.used use (inference.environment.lookup use.name)]
  | .array _ (first :: rest), inference =>
    let head := (inferExpression first).run inference
    expressionEvents first inference ++ elementEvents head.1.2 rest head.2
  | .member _ object index, inference =>
    expressionEvents object inference ++
      expressionEvents index ((inferExpression object).run inference).2
  | .binary _ left _ right, inference =>
    expressionEvents left inference ++
      expressionEvents right ((inferExpression left).run inference).2
  | .conditional _ test consequent alternate, inference =>
    let first := (inferExpression test).run inference
    let tested := (unify first.1.2 (.primitive .bool) first.1.1.offset).run first.2
    let second := (inferExpression consequent).run tested.2
    expressionEvents test inference ++
      (expressionEvents consequent tested.2 ++ expressionEvents alternate second.2)
  | .arrow _ params _ { statements, .. }, inference =>
    parameterEvents params inference ++
      statementsEvents statements ((bindParameters params).run inference).2
  | .call _ callee arguments, inference =>
    let first := (inferExpression callee).run inference
    let reached := (solve (Solver.compress first.1.2)).run first.2
    expressionEvents callee inference ++ argumentEvents arguments reached.2

/-- The events in the further elements of an array. -/
def elementEvents (element : Ty) : List Expression → Inference → List Event
  | [], _ => []
  | expression :: rest, inference =>
    let head := (inferExpression expression).run inference
    let unified := (unify element head.1.2 head.1.1.offset).run head.2
    expressionEvents expression inference ++ elementEvents element rest unified.2

/-- The events in the arguments of a call. -/
def argumentEvents : List Expression → Inference → List Event
  | [], _ => []
  | expression :: rest, inference =>
    expressionEvents expression inference ++
      argumentEvents rest ((inferExpression expression).run inference).2

/-- The events in a statement. A constant is bound to the type of its statement. -/
def statementEvents : Statement → Inference → List Event
  | .constant offset id ascription initial inferred, inference =>
    let bound := (inferStatement (.constant offset id ascription initial inferred)).run inference
    expressionEvents initial inference ++
      [.declared ⟨.constant, id.name, offset, id.offset⟩ bound.1.2]
  | .returning _ none _, _ => []
  | .returning _ (some argument) _, inference => expressionEvents argument inference

/-- The events in several statements. -/
def statementsEvents : List Statement → Inference → List Event
  | [], _ => []
  | statement :: rest, inference =>
    statementEvents statement inference ++
      statementsEvents rest ((inferStatement statement).run inference).2

end

end Inferrer

/-! ## Links and types -/

namespace Scoping

/-- The events of both walks, side by side. -/
abbrev Pairs := List (Resolver.Event × Inferrer.Event)

/-- At one of the declarations the link was made and the type was bound. -/
def Bound (known : Pairs) (link : Link) (type : Ty) : Prop :=
  ∃ declarer, (.declared declarer (some link), .declared declarer type) ∈ known

/-- What the walks find under a name. Both find something or nothing. If the resolution is
quiet about names that are declared twice, what they find belongs together. -/
inductive Matched (quiet : Prop) (known : Pairs) : Option Link → Option Ty → Prop where
  | none : Matched quiet known none none
  | some {link : Link} {type : Ty} (bound : quiet → Bound known link type) :
      Matched quiet known (some link) (some type)

/-- Two events at the same node. -/
inductive Corresponds (quiet : Prop) (known : Pairs) : Resolver.Event → Inferrer.Event → Prop where
  | used (use : Identifier) {link : Option Link} {found : Option Ty}
      (matched : Matched quiet known link found) :
      Corresponds quiet known (.used use link) (.used use found)
  | declared (declarer : Declarer) (link : Option Link) (type : Ty) :
      Corresponds quiet known (.declared declarer link) (.declared declarer type)

/-- The walks know the same names, with links and types that belong together. -/
def Agree (quiet : Prop) (known : Pairs) (resolution : Resolution)
    (environment : List (String × Ty)) : Prop :=
  ∀ name, Matched quiet known (resolution.linkOf name) (environment.lookup name)

/-- The events of two walks over the same part of a tree, after what is known. -/
def Alongside (quiet : Prop) (known : Pairs) (resolved : List Resolver.Event)
    (inferred : List Inferrer.Event) : Prop :=
  List.Forall₂ (Corresponds quiet (known ++ resolved.zip inferred)) resolved inferred

/-- If the resolution is quiet, every declaration is given a link. -/
def Linked (quiet : Prop) (events : List Resolver.Event) : Prop :=
  quiet → ∀ declarer, .declared declarer none ∉ events

variable {quiet : Prop} {known more : Pairs} {resolution after : Resolution}
  {environment : List (String × Ty)} {link : Option Link} {found : Option Ty}
  {resolved others : List Resolver.Event} {inferred further : List Inferrer.Event}

/-- What belongs together still does when more is known. -/
theorem Matched.mono (matched : Matched quiet known link found) (subset : known ⊆ more) :
    Matched quiet more link found := by
  cases matched with
  | none => exact .none
  | some bound =>
    refine .some fun isQuiet => ?_
    obtain ⟨declarer, member⟩ := bound isQuiet
    exact ⟨declarer, subset member⟩

/-- Events at the same node stay so when more is known. -/
theorem Corresponds.mono {one : Resolver.Event} {two : Inferrer.Event}
    (corresponds : Corresponds quiet known one two) (subset : known ⊆ more) :
    Corresponds quiet more one two := by
  cases corresponds with
  | used use matched => exact .used use (matched.mono subset)
  | declared declarer link type => exact .declared declarer link type

/-- All declarations of two parts are given links if those of both are. -/
theorem linked_append : Linked quiet (resolved ++ others) ↔
    Linked quiet resolved ∧ Linked quiet others := by
  simp only [Linked, List.mem_append, not_or, forall_and]

namespace Alongside

/-- What is known behind two parts, one after the other. -/
theorem zip_append (first : Alongside quiet known resolved inferred) (others)
    (further : List Inferrer.Event) :
    known ++ (resolved ++ others).zip (inferred ++ further) =
      known ++ resolved.zip inferred ++ others.zip further := by
  rw [List.zip_append first.length_eq, List.append_assoc]

/-- There is nothing in an empty part. -/
theorem nil : Alongside quiet known [] [] := List.Forall₂.nil

/-- The events of two parts, one after the other. -/
theorem append (first : Alongside quiet known resolved inferred)
    (second : Alongside quiet (known ++ resolved.zip inferred) others further) :
    Alongside quiet known (resolved ++ others) (inferred ++ further) := by
  rw [Alongside, first.zip_append]
  refine List.rel_append (R := Corresponds quiet _) ?_ second
  exact first.imp fun one two corresponds =>
    corresponds.mono (List.subset_append_left _ _)

end Alongside

namespace Agree

/-- At first no name is known. -/
theorem empty : Agree quiet [] {} [] := fun _ => .none

/-- The walks still agree when more is known. -/
theorem mono (agree : Agree quiet known resolution environment) (subset : known ⊆ more) :
    Agree quiet more resolution environment :=
  fun name => (agree name).mono subset

/-- At a declaration both walks give a name something that belongs together. -/
theorem bind {declarer : Declarer} (agree : Agree quiet known resolution environment)
    (declares : Resolver.Declares resolution after declarer link)
    (linked : Linked quiet [.declared declarer link]) (type : Ty) :
    Agree quiet (known ++ [(.declared declarer link, .declared declarer type)]) after
      ((declarer.name, type) :: environment) := by
  intro name
  by_cases same : name = declarer.name
  · subst same
    obtain ⟨shown, here, given⟩ := declares.found
    rw [here, List.lookup_cons_self]
    refine .some fun isQuiet => ?_
    cases link with
    | none => exact absurd List.mem_cons_self (linked isQuiet declarer)
    | some link =>
      rw [given link rfl]
      exact ⟨declarer, List.mem_append_right _ List.mem_cons_self⟩
  · rw [declares.kept name same, List.lookup_cons, beq_eq_false_iff_ne.mpr same]
    exact (agree name).mono (List.subset_append_left _ _)

end Agree

/-! ## Walks over trees -/

/-- Walks that have come to the same place. -/
structure Together (quiet : Prop) (known : Pairs) (resolution : Resolution)
    (inference : Inference) : Prop where
  consistent : resolution.Consistent
  wellFormed : inference.WellFormed
  agree : Agree quiet known resolution inference.environment

namespace Together

variable {inference later : Inference}

/-- A step of the inference alone. -/
theorem solve {knows makes : List VariableId} (together : Together quiet known resolution inference)
    (walked : Inferrer.Walked inference later knows makes []) :
    Together quiet known resolution later where
  consistent := together.consistent
  wellFormed := walked.wellFormed together.wellFormed
  agree := by
    rw [walked.environment]
    exact together.agree

/-- Behind a part that declares nothing. -/
theorem onward {uses linkedUses : List Identifier} {knows makes : List VariableId}
    (together : Together quiet known resolution inference)
    (records : Resolver.Records resolution after resolved [] uses linkedUses)
    (walked : Inferrer.Walked inference later knows makes []) (pairs : Pairs) :
    Together quiet (known ++ pairs) after later where
  consistent := records.consistent
  wellFormed := walked.wellFormed together.wellFormed
  agree := by
    intro name
    rw [walked.environment, records.linkOf_eq together.consistent]
    exact (together.agree name).mono (List.subset_append_left _ _)

/-- Behind an expression the walks have come to the same place. -/
theorem expression (together : Together quiet known resolution inference)
    (expression : Expression) :
    Together quiet (known ++ (Resolver.expressionEvents expression resolution).zip
        (Inferrer.expressionEvents expression inference))
      ((Resolver.resolveExpression expression).run resolution).2
      ((Inferrer.inferExpression expression).run inference).2 := by
  obtain ⟨typed, type, later, ran, -, walked⟩ :=
    Inferrer.inferExpression_walked expression inference together.wellFormed
  rw [ran]
  exact together.onward
    (Resolver.resolveExpression_records expression resolution together.consistent) walked _

end Together

/-- The parameters of a function are declared and bound one by one. -/
theorem parameters_agree (params : List Parameter) {resolution : Resolution}
    {inference : Inference} (consistent : resolution.Consistent) (sound : inference.store.Sound)
    (agree : Agree quiet known resolution inference.environment)
    (linked : Linked quiet (Resolver.parameterEvents params resolution)) :
    Alongside quiet known (Resolver.parameterEvents params resolution)
        (Inferrer.parameterEvents params inference) ∧
      Agree quiet (known ++ (Resolver.parameterEvents params resolution).zip
          (Inferrer.parameterEvents params inference))
        ((Resolver.declareParameters params).run resolution).2
        ((Inferrer.bindParameters params).run inference).2.environment := by
  induction params generalizing resolution inference known with
  | nil => exact ⟨.nil, agree.mono (List.subset_append_left _ _)⟩
  | cons param rest inductionHypothesis =>
    obtain ⟨between, declares, next⟩ := Resolver.declareParameters_declares param consistent
    obtain ⟨declared, records⟩ := declares.records
    obtain ⟨type, store, ran, invents⟩ :=
      Inferrer.parameterType_invents param inference sound
    let bound : Inference :=
      { inference with
        store
        environment := (param.name, type) :: inference.environment
        undetermined := inference.undetermined ++ [type] }
    let given := ((Resolver.declare param.name .parameter param.offset).run resolution).1
    have resolved : Resolver.parameterEvents (param :: rest) resolution =
        [.declared param.declarer given] ++ Resolver.parameterEvents rest between := by
      rw [Resolver.parameterEvents, next []]
      rfl
    have inferred : Inferrer.parameterEvents (param :: rest) inference =
        [.declared param.declarer type] ++ Inferrer.parameterEvents rest bound := by
      rw [Inferrer.parameterEvents, Inferrer.bindParameters_cons, ran]
      rfl
    have bind : ((Inferrer.bindParameters (param :: rest)).run inference).2 =
        ((Inferrer.bindParameters rest).run bound).2 := by
      rw [Inferrer.bindParameters_cons, ran]
    rw [resolved, linked_append] at linked
    rw [resolved, inferred, next rest, bind]
    have here : Alongside quiet known [.declared param.declarer given]
        [.declared param.declarer type] := .cons (.declared _ _ _) .nil
    have agree : Agree quiet _ between bound.environment := agree.bind declares linked.1 type
    obtain ⟨others, further⟩ := inductionHypothesis records.consistent
      (invents.agrees.sound sound) agree linked.2
    refine ⟨here.append others, ?_⟩
    rw [here.zip_append]
    exact further

mutual

/-- The events in an expression correspond to each other. -/
theorem expression_alongside (expression : Expression) {quiet : Prop} {known : Pairs}
    {resolution : Resolution} {inference : Inference}
    (together : Together quiet known resolution inference)
    (linked : Linked quiet (Resolver.expressionEvents expression resolution)) :
    Alongside quiet known (Resolver.expressionEvents expression resolution)
      (Inferrer.expressionEvents expression inference) := by
  match expression with
  | .number _ _ | .string _ _ | .boolean _ _ | .array _ [] => exact .nil
  | .identifier use =>
    exact .cons (.used use ((together.agree use.name).mono (List.subset_append_left _ _))) .nil
  | .array offset (first :: rest) =>
    rw [Resolver.expressionEvents, Resolver.expressionsEvents, linked_append] at linked
    obtain ⟨typed, element, between, ran, covered, -⟩ :=
      Inferrer.inferExpression_walked first inference together.wellFormed
    have head := expression_alongside first together linked.1
    have after := together.expression first
    rw [ran] at after
    rw [Resolver.expressionEvents, Resolver.expressionsEvents, Inferrer.expressionEvents, ran]
    exact head.append (elements_alongside element rest after covered linked.2)
  | .member offset object index =>
    rw [Resolver.expressionEvents, linked_append] at linked
    have first := expression_alongside object together linked.1
    exact first.append (expression_alongside index (together.expression object) linked.2)
  | .binary offset left operator right =>
    rw [Resolver.expressionEvents, linked_append] at linked
    have first := expression_alongside left together linked.1
    exact first.append (expression_alongside right (together.expression left) linked.2)
  | .conditional offset test consequent alternate =>
    rw [Resolver.expressionEvents, linked_append, linked_append] at linked
    obtain ⟨typed, type, between, ran, covered, -⟩ :=
      Inferrer.inferExpression_walked test inference together.wellFormed
    have after := together.expression test
    rw [ran] at after
    obtain ⟨_, tested, testRan, solves, -⟩ := Inferrer.unify_solves after.wellFormed.sound covered
      (by simp : (Ty.primitive .bool).Over _) typed.offset
    have first := expression_alongside test together linked.1
    have onward := after.solve solves.walked
    have second := expression_alongside consequent onward linked.2.1
    have third := expression_alongside alternate (onward.expression consequent) linked.2.2
    rw [Resolver.expressionEvents, Inferrer.expressionEvents]
    simp only [ran, testRan]
    exact first.append (second.append third)
  | .arrow offset params result { offset := opening, statements } =>
    rw [Resolver.expressionEvents, linked_append] at linked
    have opened := Resolver.consistent_opened together.consistent
    have agree : Agree quiet known resolution.opened inference.environment := together.agree
    obtain ⟨types, store, ran, invents⟩ :=
      Inferrer.bindParameters_invents params inference together.wellFormed.sound
    obtain ⟨declared, records⟩ := Resolver.declareParameters_records params opened
    obtain ⟨inputs, bound⟩ :=
      parameters_agree params opened together.wellFormed.sound agree linked.1
    have entered : Together quiet _ _ ((Inferrer.bindParameters params).run inference).2 :=
      { consistent := records.consistent
        wellFormed := by
          rw [ran]
          exact Inferrer.wellFormed_bound together.wellFormed invents
        agree := bound }
    exact inputs.append (statements_alongside statements entered linked.2).1
  | .call offset callee arguments =>
    rw [Resolver.expressionEvents, linked_append] at linked
    obtain ⟨typed, type, between, ran, covered, -⟩ :=
      Inferrer.inferExpression_walked callee inference together.wellFormed
    have after := together.expression callee
    rw [ran] at after
    obtain ⟨reached, store, compressRan, -, -, -, following⟩ :=
      Inferrer.follow_spec after.wellFormed.sound covered
    have first := expression_alongside callee together linked.1
    have onward := after.solve following
    rw [Resolver.expressionEvents, Inferrer.expressionEvents]
    simp only [ran, compressRan]
    exact first.append (arguments_alongside arguments onward linked.2)

/-- The events in the elements of an array correspond to each other. -/
theorem elements_alongside (element : Ty) (expressions : List Expression) {quiet : Prop}
    {known : Pairs} {resolution : Resolution} {inference : Inference}
    (together : Together quiet known resolution inference)
    (covered : element.Over inference.store.cells.size)
    (linked : Linked quiet (Resolver.expressionsEvents expressions resolution)) :
    Alongside quiet known (Resolver.expressionsEvents expressions resolution)
      (Inferrer.elementEvents element expressions inference) := by
  match expressions with
  | [] => exact .nil
  | first :: rest =>
    rw [Resolver.expressionsEvents, linked_append] at linked
    obtain ⟨typed, type, between, ran, typeOver, walked⟩ :=
      Inferrer.inferExpression_walked first inference together.wellFormed
    have after := together.expression first
    rw [ran] at after
    obtain ⟨_, unified, unifyRan, solves, -⟩ := Inferrer.unify_solves
      after.wellFormed.sound (walked.covered covered) typeOver typed.offset
    have head := expression_alongside first together linked.1
    have onward := after.solve solves.walked
    rw [Resolver.expressionsEvents, Inferrer.elementEvents]
    simp only [ran, unifyRan]
    exact head.append
      (elements_alongside element rest onward
        (solves.walked.covered (walked.covered covered)) linked.2)

/-- The events in the arguments of a call correspond to each other. -/
theorem arguments_alongside (expressions : List Expression) {quiet : Prop} {known : Pairs}
    {resolution : Resolution} {inference : Inference}
    (together : Together quiet known resolution inference)
    (linked : Linked quiet (Resolver.expressionsEvents expressions resolution)) :
    Alongside quiet known (Resolver.expressionsEvents expressions resolution)
      (Inferrer.argumentEvents expressions inference) := by
  match expressions with
  | [] => exact .nil
  | first :: rest =>
    rw [Resolver.expressionsEvents, linked_append] at linked
    have head := expression_alongside first together linked.1
    exact head.append (arguments_alongside rest (together.expression first) linked.2)

/-- The events in a statement correspond to each other, and behind it the walks have come to
the same place. -/
theorem statement_alongside (statement : Statement) {quiet : Prop} {known : Pairs}
    {resolution : Resolution} {inference : Inference}
    (together : Together quiet known resolution inference)
    (linked : Linked quiet (Resolver.statementEvents statement resolution)) :
    Alongside quiet known (Resolver.statementEvents statement resolution)
        (Inferrer.statementEvents statement inference) ∧
      Together quiet (known ++ (Resolver.statementEvents statement resolution).zip
          (Inferrer.statementEvents statement inference))
        ((Resolver.resolveStatement statement).run resolution).2
        ((Inferrer.inferStatement statement).run inference).2 := by
  match statement with
  | .constant offset id ascription initial inferred =>
    rw [Resolver.statementEvents, linked_append] at linked
    obtain ⟨typed, type, first, ran, covered, walked⟩ :=
      Inferrer.inferExpression_walked initial inference together.wellFormed
    obtain ⟨ascribed, second, ascribeRan, yields⟩ := Inferrer.ascribe_yields
      (walked.wellFormed together.wellFormed) covered ascription typed.offset
    have bound : (Inferrer.inferStatement (.constant offset id ascription initial inferred)).run
        inference = ((.constant offset id ascription typed (some ascribed), ascribed),
          { second with environment := (id.name, ascribed) :: second.environment }) := by
      simp only [Inferrer.inferStatement_constant, ran, ascribeRan]
    rcases valueRan : (Resolver.resolveExpression initial).run resolution with ⟨value, between⟩
    have value := together.expression initial
    rw [ran, valueRan] at value
    obtain ⟨_, after, declareRan, -, declares⟩ := Resolver.resolveStatement_declares offset id
      ascription initial inferred valueRan value.consistent
    obtain ⟨declared, records⟩ := declares.records
    obtain ⟨_, _, _, _, statementRan, -, statementWalked⟩ := Inferrer.inferStatement_walked
      (.constant offset id ascription initial inferred) inference together.wellFormed
    rw [valueRan] at linked
    have initials := expression_alongside initial together linked.1
    rw [Resolver.statementEvents, Inferrer.statementEvents]
    simp only [bound, valueRan, declareRan]
    refine ⟨initials.append (.cons (.declared _ _ _) .nil), ?_⟩
    rw [initials.zip_append]
    exact
      { consistent := records.consistent
        wellFormed := by
          rw [bound] at statementRan
          obtain ⟨-, rfl⟩ := Prod.mk.inj statementRan
          exact statementWalked.wellFormed together.wellFormed
        agree := (value.solve yields.walked).agree.bind declares linked.2 ascribed }
  | .returning offset none inferred =>
    rw [Resolver.statementEvents, Inferrer.statementEvents, List.zip_nil_left, List.append_nil]
    exact ⟨.nil, together⟩
  | .returning offset (some argument) inferred =>
    exact ⟨expression_alongside argument together linked, together.expression argument⟩

/-- The events in several statements correspond to each other, and behind them the walks
have come to the same place. -/
theorem statements_alongside (statements : List Statement) {quiet : Prop} {known : Pairs}
    {resolution : Resolution} {inference : Inference}
    (together : Together quiet known resolution inference)
    (linked : Linked quiet (Resolver.statementsEvents statements resolution)) :
    Alongside quiet known (Resolver.statementsEvents statements resolution)
        (Inferrer.statementsEvents statements inference) ∧
      Together quiet (known ++ (Resolver.statementsEvents statements resolution).zip
          (Inferrer.statementsEvents statements inference))
        ((Resolver.resolveStatements statements).run resolution).2
        ((Inferrer.inferStatements statements).run inference).2 := by
  match statements with
  | [] =>
    rw [Resolver.statementsEvents, Inferrer.statementsEvents, List.zip_nil_left, List.append_nil]
    exact ⟨.nil, together⟩
  | statement :: rest =>
    rw [Resolver.statementsEvents, linked_append] at linked
    obtain ⟨first, between⟩ := statement_alongside statement together linked.1
    obtain ⟨others, after⟩ := statements_alongside rest between linked.2
    refine ⟨first.append others, ?_⟩
    rw [Resolver.statementsEvents, Inferrer.statementsEvents, first.zip_append]
    exact after

end

/-- An event has a corresponding one at the same place. -/
theorem Alongside.at (alongside : Alongside quiet [] resolved inferred) {place : Nat}
    {event : Resolver.Event} (found : resolved[place]? = some event) :
    ∃ other, inferred[place]? = some other ∧
      Corresponds quiet (resolved.zip inferred) event other := by
  obtain ⟨same, corresponds⟩ := List.forall₂_iff_get.mp alongside
  obtain ⟨inside, rfl⟩ := List.getElem?_eq_some_iff.mp found
  have also : place < inferred.length := same ▸ inside
  exact ⟨inferred[place], List.getElem?_eq_getElem also, corresponds place inside also⟩

end Scoping

/-- A problem with a name that its scope has already. -/
def Diagnostic.IsDuplicate (diagnostic : Diagnostic) : Prop :=
  diagnostic.code = .duplicateDeclaration ∨ diagnostic.code = .duplicateParameter

namespace Program

/-- The events at which the inference uses and binds names. -/
def inferenceEvents (program : Program) : List Inferrer.Event :=
  Inferrer.statementsEvents program.body {}

/-- The inference binds the type at the one declaration that was given the link. -/
def Binds (program : Program) (link : Link) (type : Ty) : Prop :=
  ∃ (place : Nat) (declarer : Declarer),
    program.resolutionEvents[place]? = some (.declared declarer (some link)) ∧
      program.inferenceEvents[place]? = some (.declared declarer type) ∧
      ∀ (other : Nat) (another : Declarer),
        program.resolutionEvents[other]? = some (.declared another (some link)) → other = place

/-- The resolution reports a declaration that is given no link. -/
theorem linked_of_quiet (program : Program) :
    Scoping.Linked (∀ diagnostic ∈ program.resolve.diagnostics, ¬ diagnostic.IsDuplicate)
      program.resolutionEvents := by
  intro quiet declarer member
  have reported : Resolver.problem (.declared declarer none) =
      some ⟨declarer.duplicate, declarer.place⟩ := rfl
  refine quiet ⟨declarer.duplicate, declarer.place⟩ ?_ ?_
  · rw [program.resolve_records.1]
    exact List.mem_filterMap.mpr ⟨_, member, reported⟩
  · obtain ⟨kind, name, offset, place⟩ := declarer
    cases kind with
    | constant => exact .inl rfl
    | parameter => exact .inr rfl

/-- The name resolution and the inference agree on scopes: at every use of a name, the
inference finds a type exactly if the use is linked, that is, unless it is reported. If no
name is reported as declared twice, the type is the one that the inference has bound at the
very declaration to which the use is linked. -/
theorem scoping_agrees (program : Program) :
    program.resolve.diagnostics = program.resolutionEvents.filterMap Resolver.problem ∧
      program.uses = program.resolutionEvents.filterMap ScopeEvent.use? ∧
      program.resolve.program.uses = program.resolutionEvents.filterMap Resolver.linked ∧
      ∀ (place : Nat) (use : Identifier) (link : Option Link),
        program.resolutionEvents[place]? = some (.used use link) →
        ∃ found, program.inferenceEvents[place]? = some (.used use found) ∧
          (found = none ↔ link = none) ∧
          ((∀ diagnostic ∈ program.resolve.diagnostics, ¬ diagnostic.IsDuplicate) →
            ∀ declaration, link = some declaration →
              ∃ type, found = some type ∧ program.Binds declaration type) := by
  obtain ⟨diagnostics, uses, linked⟩ := program.resolve_records
  refine ⟨diagnostics, uses, linked, ?_⟩
  have start : Scoping.Together
      (∀ diagnostic ∈ program.resolve.diagnostics, ¬ diagnostic.IsDuplicate) [] {} {} :=
    { consistent := Resolution.consistent_empty
      wellFormed := Inference.wellFormed_empty
      agree := .empty }
  obtain ⟨alongside, -⟩ :=
    Scoping.statements_alongside program.body start program.linked_of_quiet
  intro place use link here
  obtain ⟨other, there, corresponds⟩ := alongside.at here
  cases corresponds with
  | @used _ _ found matched =>
    refine ⟨found, there, ?_, ?_⟩
    · cases matched <;> simp
    · rintro quiet declaration rfl
      cases matched with
      | @some _ type bound =>
        obtain ⟨declarer, member⟩ := bound quiet
        obtain ⟨origin, isOrigin⟩ := List.mem_iff_getElem?.mp member
        obtain ⟨made, given⟩ := List.getElem?_zip_eq_some.mp isOrigin
        exact ⟨type, rfl, origin, declarer, made, given, fun other another same =>
          program.link_unique made same⟩

/-- In `const a = 1; const f = (a) => { return a; };` the use refers to the parameter, under
the type that was bound for the parameter. -/
theorem scoping_agrees_shadowed :
    let use : Identifier := { offset := 39, name := "a" }
    let function : Expression := .arrow 23 [{ offset := 24, name := "a" }] none
      { offset := 30, statements := [.returning 32 (some (.identifier use))] }
    let program : Program :=
      { body := [.constant 0 { offset := 6, name := "a" } none (.number 10 (.int 1)),
          .constant 13 { offset := 19, name := "f" } none function] }
    let parameter : Link := { number := 1, name := "a", kind := .parameter, offset := 24 }
    program.resolutionEvents[2]? = some (.used use (some parameter)) ∧
      (∀ diagnostic ∈ program.resolve.diagnostics, ¬ diagnostic.IsDuplicate) ∧
      ∃ type, program.inferenceEvents[2]? = some (.used use (some type)) ∧
        program.Binds parameter type := by
  intro use function program parameter
  have here : program.resolutionEvents[2]? = some (.used use (some parameter)) := rfl
  have quiet : ∀ diagnostic ∈ program.resolve.diagnostics, ¬ diagnostic.IsDuplicate := by
    have none : program.resolve.diagnostics = [] := rfl
    simp [none]
  obtain ⟨found, there, -, bound⟩ := program.scoping_agrees.2.2.2 2 use (some parameter) here
  obtain ⟨type, rfl, binds⟩ := bound quiet parameter rfl
  exact ⟨here, quiet, type, there, binds⟩

end Program

end ArrowScript
