import ArrowScript.Proofs.Inference.Reachability
import ArrowScript.Proofs.Inference.Sums
import ArrowScript.Proofs.Ty.Naming
import ArrowScript.Proofs.Ty.Printing

/-!
# Printed types identify types

An inference changes its store only by what it asks of it, so the store of every reachable
state has evolved from the empty one, and its variables are named after their places. What
is printed of a term is then the text of what the term stands for, and a text is that of
one type only.
-/

namespace ArrowScript

namespace Inferrer

variable {α β : Type}

/-- A walk that evolves the store. -/
def Evolves (walk : Inferrer α) : Prop :=
  ∀ inference : Inference, inference.store.Evolves (walk.run inference).2.store

variable {walk other : Inferrer α} {next : α → Inferrer β}

namespace Evolves

/-- A walk that leaves the store alone. -/
theorem idle (same : ∀ inference, (walk.run inference).2.store = inference.store) :
    Evolves walk := fun inference => same inference ▸ .refl

/-- A result. -/
theorem pure (result : α) : Evolves (pure result) := .idle fun _ => rfl

/-- Two walks, one after the other. -/
theorem bind (first : Evolves walk) (second : ∀ result, Evolves (next result)) :
    Evolves (walk >>= next) :=
  fun inference => (first inference).trans (second _ _)

/-- A choice. -/
theorem ite {condition : Prop} [Decidable condition] (positive : Evolves walk)
    (negative : Evolves other) : Evolves (if condition then walk else other) := by
  split
  · exact positive
  · exact negative

/-- A computation on the store. -/
theorem solve {solver : Solver α} (evolves : Solver.Evolves solver) : Evolves (solve solver) :=
  fun inference => evolves inference.store

/-- A look at what is known. -/
theorem get : Evolves get := .idle fun _ => rfl

/-- Recording problems. -/
theorem report (problems : List Problem) (offset : Int) : Evolves (report problems offset) :=
  .idle fun _ => rfl

/-- A new type variable. -/
theorem freshVariable : Evolves freshVariable :=
  .bind (.solve Solver.fresh_evolves) fun _ => .pure _

/-- Unifying two types. -/
theorem unify (left right : Ty) (offset : Int) : Evolves (unify left right offset) :=
  .bind (.solve (Solver.unify_evolves left right)) fun _ => .bind (.report _ _) fun _ => .pure _

/-- Giving a name a type. -/
theorem bound (name : String) (type : Ty) : Evolves (Inferrer.bind name type) :=
  .idle fun _ => rfl

/-- The type of a use of a name. -/
theorem lookup (name : String) : Evolves (lookup name) := by
  refine .bind .get fun inference => ?_
  split
  · exact freshVariable
  · exact .bind .get fun _ => .solve (Solver.freshInstance_evolves _ _)

/-- A scope of its own. -/
theorem inNewScope (evolves : Evolves walk) : Evolves (inNewScope walk) :=
  .bind .get fun _ => .bind evolves fun _ => .bind (.idle fun _ => rfl) fun _ => .pure _

end Evolves

/-! ## Rules of the inference -/

mutual

/-- The type that an ascription denotes. -/
theorem ascriptionType_evolves (ascription : Ascription) : Evolves (ascriptionType ascription) := by
  match ascription with
  | .named _ name =>
    rw [ascriptionType]
    split
    · exact .pure _
    · exact .freshVariable
  | .array _ element => exact .bind (ascriptionType_evolves element) fun _ => .pure _
  | .function _ params result =>
    exact .bind (parameterTypes_evolves params) fun _ =>
      .bind (ascriptionType_evolves result) fun _ => .pure _

/-- The type of a parameter. -/
theorem parameterType_evolves (param : Parameter) : Evolves (parameterType param) := by
  match param with
  | { ascription := some ascription, .. } => exact ascriptionType_evolves ascription
  | { ascription := none, .. } => exact .freshVariable

/-- The types of several parameters. -/
theorem parameterTypes_evolves (params : List Parameter) : Evolves (parameterTypes params) := by
  match params with
  | [] => exact .pure _
  | param :: rest =>
    exact .bind (parameterType_evolves param) fun _ => .bind (parameterTypes_evolves rest)
      fun _ => .pure _

end

/-- The parameters of a function whose body is inferred next. -/
theorem bindParameters_evolves (params : List Parameter) : Evolves (bindParameters params) := by
  induction params with
  | nil => exact .pure _
  | cons param rest inductionHypothesis =>
    exact .bind (parameterType_evolves param) fun _ => .bind (.bound _ _) fun _ =>
      .bind (.idle fun _ => rfl) fun _ => .bind inductionHypothesis fun _ => .pure _

/-- Whether a type is the primitive of strings. -/
theorem isString_evolves (type : Ty) : Evolves (isString type) := by
  refine .bind (.solve (Solver.compress_evolves _)) fun head => ?_
  split <;> exact .pure _

/-- The type of a sum. -/
theorem sumType_evolves (left right : Ty) (leftOffset rightOffset offset : Int)
    (operator : String) :
    Evolves (sumType left right leftOffset rightOffset offset operator) := by
  have textual : Evolves (do if ← isString left then pure true else isString right) :=
    .bind (isString_evolves left) fun _ => .ite (.pure true) (isString_evolves right)
  rw [sumType_eq]
  refine .bind textual fun _ => .ite ?_ ?_
  · exact .bind (.unify _ _ _) fun _ => .bind (.unify _ _ _) fun _ => .pure _
  · refine .bind (.solve Solver.fresh_evolves) fun operand => .bind (.unify _ _ _) fun leftFits =>
      .bind (.unify _ _ _) fun rightFits => .bind (.solve (Solver.compress_evolves _))
        fun reached => ?_
    unfold settleSum
    split
    · exact .bind (.solve (Solver.link_evolves _ _)) fun _ => .pure _
    · exact .pure _
    · exact .pure _
    · exact .ite (.bind (.solve (Solver.print_evolves _)) fun _ => .bind (.report _ _) fun _ =>
        .freshVariable) .freshVariable

/-- The arguments of a call. -/
theorem passArguments_evolves (params : List Ty) (arguments : List (Expression × Ty)) :
    Evolves (passArguments params arguments) := by
  induction params generalizing arguments with
  | nil => exact .pure ()
  | cons param params inductionHypothesis =>
    cases arguments with
    | nil => exact .pure ()
    | cons argument arguments =>
      exact .bind (.unify _ _ _) fun _ => inductionHypothesis arguments

/-- The type of a call. -/
theorem callType_evolves (callee : Ty) (arguments : List (Expression × Ty)) (offset : Int) :
    Evolves (callType callee arguments offset) := by
  unfold callType
  split
  · exact .bind .freshVariable fun _ => .bind (.unify _ _ _) fun _ => .pure _
  · exact .ite (.bind (.report _ _) fun _ => .freshVariable)
      (.bind (passArguments_evolves _ _) fun _ => .pure _)
  · exact .bind (.solve (Solver.print_evolves _)) fun _ => .bind (.report _ _) fun _ =>
      .freshVariable

/-- The type of a function. -/
theorem functionType_evolves (params : List Ty) (body : List (Statement × Ty))
    (result : Option Ascription) (offset : Int) :
    Evolves (functionType params body result offset) := by
  cases result with
  | none => exact .pure _
  | some ascription =>
    exact .bind (ascriptionType_evolves ascription) fun _ => .bind (.unify _ _ _) fun _ => .pure _

/-! ## Trees -/

mutual

/-- The inference of an expression. -/
theorem inferExpression_evolves (expression : Expression) :
    Evolves (inferExpression expression) := by
  match expression with
  | .number _ _ | .string _ _ | .boolean _ _ => exact .pure _
  | .identifier identifier => exact .bind (.lookup identifier.name) fun _ => .pure _
  | .array _ [] => exact .bind .freshVariable fun _ => .pure _
  | .array _ (first :: rest) =>
    exact .bind (inferExpression_evolves first) fun (_, element) =>
      .bind (inferElements_evolves element rest) fun _ => .pure _
  | .member _ object index =>
    exact .bind (inferExpression_evolves object) fun _ =>
      .bind (inferExpression_evolves index) fun _ => .bind (.unify _ _ _) fun _ =>
        .bind .freshVariable fun _ => .bind (.unify _ _ _) fun _ => .pure _
  | .binary _ left operator right =>
    exact .bind (inferExpression_evolves left) fun _ =>
      .bind (inferExpression_evolves right) fun _ =>
        .ite (.bind (sumType_evolves _ _ _ _ _ _) fun _ => .pure _)
          (.bind (.report _ _) fun _ => .bind .freshVariable fun _ => .pure _)
  | .conditional _ test consequent alternate =>
    exact .bind (inferExpression_evolves test) fun _ => .bind (.unify _ _ _) fun _ =>
      .bind (inferExpression_evolves consequent) fun _ =>
        .bind (inferExpression_evolves alternate) fun _ => .bind .freshVariable fun _ =>
          .bind (.unify _ _ _) fun _ => .bind (.unify _ _ _) fun _ => .pure _
  | .arrow _ params result { statements, .. } =>
    exact .inNewScope (.bind (bindParameters_evolves params) fun _ =>
      .bind (inferStatements_evolves statements) fun _ =>
        .bind (functionType_evolves _ _ result _) fun _ => .pure _)
  | .call _ callee arguments =>
    exact .bind (inferExpression_evolves callee) fun _ =>
      .bind (.solve (Solver.compress_evolves _)) fun _ =>
        .bind (inferArguments_evolves arguments) fun _ =>
          .bind (callType_evolves _ _ _) fun _ => .pure _

/-- The inference of further elements. -/
theorem inferElements_evolves (element : Ty) (expressions : List Expression) :
    Evolves (inferElements element expressions) := by
  match expressions with
  | [] => exact .pure _
  | expression :: rest =>
    exact .bind (inferExpression_evolves expression) fun _ => .bind (.unify _ _ _) fun _ =>
      .bind (inferElements_evolves element rest) fun _ => .pure _

/-- The inference of arguments. -/
theorem inferArguments_evolves (expressions : List Expression) :
    Evolves (inferArguments expressions) := by
  match expressions with
  | [] => exact .pure _
  | expression :: rest =>
    exact .bind (inferExpression_evolves expression) fun _ =>
      .bind (inferArguments_evolves rest) fun _ => .pure _

/-- The inference of a statement. -/
theorem inferStatement_evolves (statement : Statement) : Evolves (inferStatement statement) := by
  match statement with
  | .constant _ _ none initial _ =>
    exact .bind (inferExpression_evolves initial) fun _ => .bind (.pure _) fun _ =>
      .bind (.bound _ _) fun _ => .pure _
  | .constant _ _ (some written) initial _ =>
    exact .bind (inferExpression_evolves initial) fun _ =>
      .bind (ascriptionType_evolves written) fun _ => .bind (.unify _ _ _) fun _ =>
        .bind (.pure _) fun _ => .bind (.bound _ _) fun _ => .pure _
  | .returning _ none _ => exact .pure _
  | .returning _ (some argument) _ =>
    exact .bind (inferExpression_evolves argument) fun _ => .pure _

/-- The inference of several statements. -/
theorem inferStatements_evolves (statements : List Statement) :
    Evolves (inferStatements statements) := by
  match statements with
  | [] => exact .pure _
  | statement :: rest =>
    exact .bind (inferStatement_evolves statement) fun _ =>
      .bind (inferStatements_evolves rest) fun _ => .pure _

end

/-! ## Reachable states -/

/-- A rule for a node evolves the store, and so does its absence. -/
theorem Evolves.ofRule {rule : Except InternalError (Inferrer Ty)}
    (evolves : ∀ walk, rule = .ok walk → Evolves walk) : Evolves (Operation.ofRule rule) := by
  cases rule with
  | ok walk => exact .bind (evolves walk rfl) fun _ => .pure _
  | error _ => exact .pure _

/-- Every operation evolves the store. -/
theorem perform_evolves (operation : Operation) : Evolves operation.perform := by
  cases operation with
  | newVariable => exact .bind .freshVariable fun _ => .pure _
  | unify left right offset => exact .bind (.unify left right offset) fun _ => .pure _
  | copy type given =>
    exact .bind .get fun inference => .bind
      (.solve fun store => Solver.sharedInstance_evolves _ type (given, store)) fun _ => .pure _
  | lookup name => exact .bind (.lookup name) fun _ => .pure _
  | annotation node =>
    refine .ofRule fun walk rule => ?_
    cases node with
    | ascription root => exact Except.ok.inj rule ▸ ascriptionType_evolves root
    | _ => cases rule
  | infer node =>
    refine .ofRule fun walk rule => ?_
    cases node with
    | expression root =>
      exact Except.ok.inj rule ▸ .bind (inferExpression_evolves root) fun _ => .pure _
    | statement root =>
      exact Except.ok.inj rule ▸ .bind (inferStatement_evolves root) fun _ => .pure _
    | _ => cases rule
  | inferProgram program => exact .bind (inferStatements_evolves program.body) fun _ => .pure _
  | compress type => exact .bind (.solve (Solver.compress_evolves type)) fun _ => .pure _
  | search sought type =>
    exact .bind (.solve (Solver.occursIn_evolves sought type)) fun _ => .pure _
  | print type => exact .bind (.solve (Solver.print_evolves type)) fun _ => .pure _
  | enter environment undetermined => exact .bind (.idle fun _ => rfl) fun _ => .pure _

end Inferrer

/-- In every reachable state each variable is named after its place. -/
theorem Reachable.named {inference : Inference} (reachable : Reachable inference) :
    inference.store.Named := by
  induction reachable with
  | initial => exact Store.named_empty
  | step _ operation _ inductionHypothesis =>
    exact (Inferrer.perform_evolves operation _).named inductionHypothesis

namespace Solver

/-- A term is printed as the text of what it stands for, and nothing changes about what
terms stand for. -/
theorem print_text {store : Store} (sound : store.Sound) (named : store.Named) {term : Ty}
    (covered : term.Over store.cells.size) :
    ((print term).run store).1 = (store.resolve term).text ∧
      Store.Agrees store ((print term).run store).2 ∧
      ((print term).run store).2.cells.size = store.cells.size := by
  obtain ⟨after, -, ran, agrees, size⟩ := print_spec sound covered
  have evolves : store.Evolves ((print term).run store).2 := print_evolves term store
  rw [ran] at evolves ⊢
  exact ⟨(evolves.named named).render_eq _, agrees, size⟩

end Solver

/-- In every reachable state two types are printed alike, each for itself or one behind the
other, exactly when they stand for the same type. -/
theorem reachable_print_iff (inference : Inference) (reachable : Reachable inference)
    (first second : Ty) (firstOver : first.Over inference.store.cells.size)
    (secondOver : second.Over inference.store.cells.size) :
    let printed := (Solver.print first).run inference.store
    (printed.1 = ((Solver.print second).run inference.store).1 ↔
        inference.store.resolve first = inference.store.resolve second) ∧
      (printed.1 = ((Solver.print second).run printed.2).1 ↔
        inference.store.resolve first = inference.store.resolve second) := by
  intro printed
  have sound := reachable.wellFormed.sound
  have named := reachable.named
  obtain ⟨text, agrees, size⟩ := Solver.print_text sound named firstOver
  have behind := Solver.print_text (agrees.sound sound)
    ((Solver.print_evolves first inference.store).named named) (size ▸ secondOver)
  rw [agrees.resolve_eq] at behind
  refine ⟨?_, ?_⟩
  · rw [text, (Solver.print_text sound named secondOver).1]
    exact Ty.text_injective.eq_iff
  · rw [text, behind.1]
    exact Ty.text_injective.eq_iff

/-- A variable that is linked to a function is printed like the function where it is a
parameter, and not like the function that gives it. -/
theorem print_linked_param :
    let start : Inference :=
      (Operation.newVariable.perform.run (Operation.newVariable.perform.run {}).2).2
    let linked : Inference :=
      ((Operation.unify (.var 1) (.function [.var 0] (.var 0)) 0).perform.run start).2
    let printed (term : Ty) : String := ((Solver.print term).run linked.store).1
    let taking := Ty.function [.var 1] (.var 0)
    let written := Ty.function [.function [.var 0] (.var 0)] (.var 0)
    let giving := Ty.function [.var 0] (.var 1)
    printed taking = printed written ∧ printed taking ≠ printed giving := by
  intro start linked printed taking written giving
  have begun : Reachable start :=
    (Reachable.initial.step .newVariable trivial).step .newVariable trivial
  have startSize : start.store.cells.size = 2 := by decide +kernel
  have allowed : (Operation.unify (.var 1) (.function [.var 0] (.var 0)) 0).Allowed start := by
    change _ ∧ _
    simp [startSize]
  have reachable : Reachable linked := begun.step _ allowed
  have size : linked.store.cells.size = 2 := by decide +kernel
  have takingOver : taking.Over linked.store.cells.size := by simp [taking, size]
  have writtenOver : written.Over linked.store.cells.size := by simp [written, size]
  have givingOver : giving.Over linked.store.cells.size := by simp [giving, size]
  have same : linked.store.resolve taking = linked.store.resolve written :=
    Ty.text_injective (by decide +kernel)
  have apart : linked.store.resolve taking ≠ linked.store.resolve giving :=
    ne_of_apply_ne Ty.text (by decide +kernel)
  exact ⟨(reachable_print_iff linked reachable taking written takingOver writtenOver).1.mpr same,
    (reachable_print_iff linked reachable taking giving takingOver givingOver).1.not.mpr apart⟩

end ArrowScript
