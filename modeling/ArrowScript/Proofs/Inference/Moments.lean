import ArrowScript.Proofs.Inference.Trees

/-!
# The moments of an inference

What holds at a place of the tree while a walk is there depends on all that the walk has
done before. A moment is a part of a tree together with the state in which the walk over
it begins. The walk over a part comes to the parts of it one after the other, each in the
state that the ones before have left, and so on down to the leaves: these are the moments
that are visited from it.

From one moment to the moments directly in it, three things are kept: the state is
well-formed, no type of a parameter is forgotten, and what is known behind the inner walk
is still known behind the outer one. So they are kept on the whole way from a program
down to any place in it.
-/

namespace ArrowScript

mutual

/-- The expressions that stand in an expression, in the order of the source. -/
def Expression.inside : Expression → List Expression
  | .number _ _ | .string _ _ | .boolean _ _ | .identifier _ => []
  | .array _ elements => Expression.listed elements
  | .member _ object index => object :: object.inside ++ index :: index.inside
  | .binary _ left _ right => left :: left.inside ++ right :: right.inside
  | .conditional _ test consequent alternate =>
    test :: test.inside ++ consequent :: consequent.inside ++ alternate :: alternate.inside
  | .arrow _ _ _ { statements, .. } => Statement.expressionsOf statements
  | .call _ callee arguments => callee :: callee.inside ++ Expression.listed arguments

/-- Several expressions, each followed by those that stand in it. -/
def Expression.listed : List Expression → List Expression
  | [] => []
  | expression :: rest => expression :: expression.inside ++ Expression.listed rest

/-- The expressions in a statement. -/
def Statement.expressions : Statement → List Expression
  | .constant _ _ _ initial _ => initial :: initial.inside
  | .returning _ none _ => []
  | .returning _ (some argument) _ => argument :: argument.inside

/-- The expressions in several statements. -/
def Statement.expressionsOf : List Statement → List Expression
  | [] => []
  | statement :: rest => statement.expressions ++ Statement.expressionsOf rest

end

namespace Inferrer

open Store

/-- What a walk can be over: one expression or statement, or several of a kind. The further
elements of an array are compared with the type of the first one. -/
inductive Subject where
  | expression (root : Expression)
  | elements (element : Ty) (expressions : List Expression)
  | arguments (expressions : List Expression)
  | statement (root : Statement)
  | statements (roots : List Statement)

/-- A walk that begins. -/
structure Moment where
  subject : Subject
  state : Inference

namespace Moment

/-- The state behind the walk. -/
def after : Moment → Inference
  | ⟨.expression root, state⟩ => ((inferExpression root).run state).2
  | ⟨.elements element expressions, state⟩ => ((inferElements element expressions).run state).2
  | ⟨.arguments expressions, state⟩ => ((inferArguments expressions).run state).2
  | ⟨.statement root, state⟩ => ((inferStatement root).run state).2
  | ⟨.statements roots, state⟩ => ((inferStatements roots).run state).2

/-- What is behind an expression is what its walk leads to. -/
theorem after_expression (root : Expression) (state : Inference) :
    after ⟨.expression root, state⟩ = ((inferExpression root).run state).2 := rfl

/-- What is behind a statement is what its walk leads to. -/
theorem after_statement (root : Statement) (state : Inference) :
    after ⟨.statement root, state⟩ = ((inferStatement root).run state).2 := rfl

/-- What is behind several statements is what the walk over them leads to. -/
theorem after_statements (roots : List Statement) (state : Inference) :
    after ⟨.statements roots, state⟩ = ((inferStatements roots).run state).2 := rfl

/-- The moments directly in a walk, in their order. -/
def parts : Moment → List Moment
  | ⟨.expression (.array _ (first :: rest)), state⟩ =>
    let head := (inferExpression first).run state
    [⟨.expression first, state⟩, ⟨.elements head.1.2 rest, head.2⟩]
  | ⟨.expression (.member _ object index), state⟩ =>
    [⟨.expression object, state⟩, ⟨.expression index, ((inferExpression object).run state).2⟩]
  | ⟨.expression (.binary _ left _ right), state⟩ =>
    [⟨.expression left, state⟩, ⟨.expression right, ((inferExpression left).run state).2⟩]
  | ⟨.expression (.conditional _ test consequent alternate), state⟩ =>
    let first := (inferExpression test).run state
    let tested := (unify first.1.2 (.primitive .bool) first.1.1.offset).run first.2
    let second := (inferExpression consequent).run tested.2
    [⟨.expression test, state⟩, ⟨.expression consequent, tested.2⟩,
      ⟨.expression alternate, second.2⟩]
  | ⟨.expression (.arrow _ params _ { statements, .. }), state⟩ =>
    [⟨.statements statements, ((bindParameters params).run state).2⟩]
  | ⟨.expression (.call _ callee arguments), state⟩ =>
    let first := (inferExpression callee).run state
    let reached := (solve (Solver.compress first.1.2)).run first.2
    [⟨.expression callee, state⟩, ⟨.arguments arguments, reached.2⟩]
  | ⟨.elements element (first :: rest), state⟩ =>
    let head := (inferExpression first).run state
    let unified := (unify element head.1.2 head.1.1.offset).run head.2
    [⟨.expression first, state⟩, ⟨.elements element rest, unified.2⟩]
  | ⟨.arguments (first :: rest), state⟩ =>
    [⟨.expression first, state⟩, ⟨.arguments rest, ((inferExpression first).run state).2⟩]
  | ⟨.statement (.constant _ _ _ initial _), state⟩ => [⟨.expression initial, state⟩]
  | ⟨.statement (.returning _ (some argument) _), state⟩ => [⟨.expression argument, state⟩]
  | ⟨.statements (first :: rest), state⟩ =>
    [⟨.statement first, state⟩, ⟨.statements rest, ((inferStatement first).run state).2⟩]
  | _ => []

/-- One moment is visited in the walk that begins at another. -/
def Visits : Moment → Moment → Prop :=
  Relation.ReflTransGen fun whole part => part ∈ whole.parts

/-- The walk begins in a well-formed state, and what further elements of an array are
compared with is a type over its variables. -/
def Ready : Moment → Prop
  | ⟨.elements element _, state⟩ => state.WellFormed ∧ element.Over state.store.cells.size
  | ⟨_, state⟩ => state.WellFormed

/-- Any walk begins in a well-formed state. -/
theorem Ready.wellFormed {moment : Moment} (ready : moment.Ready) : moment.state.WellFormed := by
  obtain ⟨subject, state⟩ := moment
  cases subject with
  | elements element expressions => exact ready.1
  | expression root | arguments expressions | statement root | statements roots => exact ready

/-! ## From a walk to the walks in it -/

/-- What is kept from the beginning of a walk to the beginning of another inside it, and from
the end of that to its own end. -/
structure Within (whole part : Moment) : Prop where
  ready : part.Ready
  undetermined : whole.state.undetermined ⊆ part.state.undetermined
  refines : Refines part.after.store whole.after.store

/-- It is kept by a walk inside a walk inside a walk. -/
theorem Within.trans {whole part inner : Moment} (first : Within whole part)
    (second : Within part inner) : Within whole inner where
  ready := second.ready
  undetermined := List.Subset.trans first.undetermined second.undetermined
  refines := second.refines.trans first.refines

/-- What a walk leads to before the next one begins: the state is well-formed again, no type of
a parameter is forgotten, and what is known is still known. -/
structure Leads (before after : Inference) : Prop where
  wellFormed : after.WellFormed
  undetermined : before.undetermined ⊆ after.undetermined
  refines : Refines before.store after.store

namespace Leads

variable {before between after : Inference}

/-- Doing nothing leads to the same state. -/
theorem refl (wellFormed : before.WellFormed) : Leads before before :=
  ⟨wellFormed, List.Subset.refl _, .of_agrees (.refl _) wellFormed.sound⟩

/-- Every walk leads to where it ends. -/
theorem of_walked {known made : List VariableId} {bound : List (String × Ty)}
    (walked : Walked before after known made bound) (wellFormed : before.WellFormed) :
    Leads before after where
  wellFormed := walked.wellFormed wellFormed
  undetermined := walked.undetermined ▸ List.Subset.refl _
  refines := walked.framed.refines

/-- A type of before is over the variables of after. -/
theorem covered (leads : Leads before after) {type : Ty}
    (typeOver : type.Over before.store.cells.size) : type.Over after.store.cells.size :=
  typeOver.mono leads.refines.size_le

/-- Unification leads on. -/
theorem unify (wellFormed : before.WellFormed) {left right : Ty}
    (leftOver : left.Over before.store.cells.size)
    (rightOver : right.Over before.store.cells.size) (offset : Int) :
    Leads before ((Inferrer.unify left right offset).run before).2 := by
  obtain ⟨_, after, ran, solves, -⟩ := unify_solves wellFormed.sound leftOver rightOver offset
  rw [ran]
  exact .of_walked solves.walked wellFormed

/-- Following a chain leads on, and its end is over the variables. -/
theorem compress (wellFormed : before.WellFormed) {type : Ty}
    (covered : type.Over before.store.cells.size) :
    Leads before ((solve (Solver.compress type)).run before).2 ∧
      ((solve (Solver.compress type)).run before).1.Over
        ((solve (Solver.compress type)).run before).2.store.cells.size := by
  obtain ⟨reached, store, ran, -, -, reachedOver, walked⟩ := follow_spec wellFormed.sound covered
  rw [ran]
  exact ⟨.of_walked walked wellFormed, reachedOver⟩

/-- So do the rules, behind the walks over their parts. -/
theorem memberType (wellFormed : before.WellFormed) {object index : Ty}
    (objectOver : object.Over before.store.cells.size)
    (indexOver : index.Over before.store.cells.size) (objectOffset indexOffset : Int) :
    Leads before ((Inferrer.memberType object index objectOffset indexOffset).run before).2 := by
  obtain ⟨type, after, ran, yields⟩ :=
    memberType_yields wellFormed objectOver indexOver objectOffset indexOffset
  rw [ran]
  exact .of_walked yields.walked wellFormed

theorem branchType (wellFormed : before.WellFormed) {consequent alternate : Ty}
    (consequentOver : consequent.Over before.store.cells.size)
    (alternateOver : alternate.Over before.store.cells.size)
    (consequentOffset alternateOffset : Int) :
    Leads before ((Inferrer.branchType consequent alternate consequentOffset
      alternateOffset).run before).2 := by
  obtain ⟨type, after, ran, yields⟩ :=
    branchType_yields wellFormed consequentOver alternateOver consequentOffset alternateOffset
  rw [ran]
  exact .of_walked yields.walked wellFormed

theorem sumType (wellFormed : before.WellFormed) {left right : Ty}
    (leftOver : left.Over before.store.cells.size)
    (rightOver : right.Over before.store.cells.size) (leftOffset rightOffset offset : Int)
    (operator : String) :
    Leads before ((Inferrer.sumType left right leftOffset rightOffset offset operator).run
      before).2 := by
  obtain ⟨type, after, ran, adds⟩ :=
    sumType_adds wellFormed leftOver rightOver leftOffset rightOffset offset operator
  rw [ran]
  exact .of_walked adds.walked wellFormed

theorem refuse (wellFormed : before.WellFormed) (problem : Problem) (offset : Int) :
    Leads before (Prod.snd
      ((do report [problem] offset; freshVariable : Inferrer Ty).run before)) := by
  obtain ⟨type, after, ran, -, walked, -⟩ := refuse_spec wellFormed problem offset
  rw [ran]
  exact .of_walked walked wellFormed

theorem callType (wellFormed : before.WellFormed) {callee : Ty}
    (calleeOver : callee.Over before.store.cells.size) {arguments : List (Expression × Ty)}
    (argumentsOver : ∀ type ∈ arguments.map (·.2), type.Over before.store.cells.size)
    (offset : Int) : Leads before ((Inferrer.callType callee arguments offset).run before).2 := by
  obtain ⟨type, after, ran, yields⟩ := callType_yields wellFormed calleeOver argumentsOver offset
  rw [ran]
  exact .of_walked yields.walked wellFormed

theorem ascribe (wellFormed : before.WellFormed) {type : Ty}
    (covered : type.Over before.store.cells.size) (ascription : Option Ascription)
    (offset : Int) : Leads before ((Inferrer.ascribe type ascription offset).run before).2 := by
  obtain ⟨ascribed, after, ran, yields⟩ := ascribe_yields wellFormed covered ascription offset
  rw [ran]
  exact .of_walked yields.walked wellFormed

end Leads

/-- The walk that begins at a moment leads to its end. -/
theorem leads {moment : Moment} (ready : moment.Ready) : Leads moment.state moment.after := by
  obtain ⟨subject, state⟩ := moment
  cases subject with
  | expression root =>
    obtain ⟨typed, type, after, ran, -, walked⟩ := inferExpression_walked root state ready
    rw [Moment.after, ran]
    exact .of_walked walked ready
  | elements element expressions =>
    obtain ⟨typed, after, ran, walked⟩ :=
      inferElements_walked element expressions state ready.1 ready.2
    rw [Moment.after, ran]
    exact .of_walked walked ready.1
  | arguments expressions =>
    obtain ⟨inferred, after, ran, -, walked⟩ := inferArguments_walked expressions state ready
    rw [Moment.after, ran]
    exact .of_walked walked ready
  | statement root =>
    obtain ⟨typed, type, after, bound, ran, -, walked⟩ := inferStatement_walked root state ready
    rw [Moment.after, ran]
    exact .of_walked walked ready
  | statements roots =>
    obtain ⟨inferred, after, bound, ran, -, walked⟩ := inferStatements_walked roots state ready
    rw [Moment.after, ran]
    exact .of_walked walked ready

variable {state : Inference}

/-- The type of an expression is over the variables behind its walk. -/
theorem type_over (root : Expression) (wellFormed : state.WellFormed) :
    ((inferExpression root).run state).1.2.Over
      ((inferExpression root).run state).2.store.cells.size := by
  obtain ⟨typed, type, after, ran, covered, -⟩ := inferExpression_walked root state wellFormed
  rwa [ran]

/-- The types of arguments are over the variables behind their walk. -/
theorem types_over (expressions : List Expression) (wellFormed : state.WellFormed) :
    ∀ type ∈ ((inferArguments expressions).run state).1.map (·.2),
      type.Over ((inferArguments expressions).run state).2.store.cells.size := by
  obtain ⟨inferred, after, ran, covered, -⟩ := inferArguments_walked expressions state wellFormed
  rwa [ran]

/-- A walk that passes through some parts, one after the other, and ends with a store. -/
inductive Passes : Inference → List Moment → Store → Prop
  | done {before : Inference} {last : Store} (behind : Refines before.store last) :
    Passes before [] last
  | next {before : Inference} {part : Moment} {rest : List Moment} {last : Store}
    (ahead : Leads before part.state) (ready : part.Ready) (further : Passes part.after rest last) :
    Passes before (part :: rest) last

/-- The walk begins with a part. -/
theorem Passes.begin {part : Moment} {rest : List Moment} {last : Store} (ready : part.Ready)
    (further : Passes part.after rest last) : Passes part.state (part :: rest) last :=
  .next (.refl ready.wellFormed) ready further

/-- Behind the last part nothing happens any more. -/
theorem Passes.finish {before : Inference} (wellFormed : before.WellFormed) :
    Passes before [] before.store :=
  .done (.of_agrees (.refl _) wellFormed.sound)

/-- What is known where a walk begins is known at its end. -/
theorem Passes.refines {before : Inference} {through : List Moment} {last : Store}
    (passes : Passes before through last) : Refines before.store last := by
  induction passes with
  | done behind => exact behind
  | next ahead ready _ inductionHypothesis =>
    exact ahead.refines.trans ((leads ready).refines.trans inductionHypothesis)

/-- A walk that passes through its parts has them inside it. -/
theorem Passes.within {whole : Moment} {before : Inference} {through : List Moment}
    (passes : Passes before through whole.after.store)
    (undetermined : whole.state.undetermined ⊆ before.undetermined) :
    ∀ part ∈ through, Within whole part := by
  generalize ends : whole.after.store = last at passes
  induction passes with
  | done => simp
  | next ahead ready further inductionHypothesis =>
    have entered := List.Subset.trans undetermined ahead.undetermined
    rw [List.forall_mem_cons]
    constructor
    · exact ⟨ready, entered, ends ▸ further.refines⟩
    · exact inductionHypothesis (List.Subset.trans entered (leads ready).undetermined) ends

/-- The walk that begins at a moment passes through its parts. -/
def Orderly (whole : Moment) : Prop := Passes whole.state whole.parts whole.after.store

section Parts

variable (offset : Int) (wellFormed : state.WellFormed)
include wellFormed

theorem array_orderly (first : Expression) (rest : List Expression) :
    Orderly ⟨.expression (.array offset (first :: rest)), state⟩ := by
  let head : Moment := ⟨.expression first, state⟩
  let tail : Moment := ⟨.elements ((inferExpression first).run state).1.2 rest, head.after⟩
  have headReady : head.Ready := wellFormed
  have tailReady : tail.Ready := ⟨(leads headReady).wellFormed, type_over first wellFormed⟩
  apply Passes.begin headReady
  apply Passes.begin tailReady
  exact .finish (leads tailReady).wellFormed

theorem member_orderly (object index : Expression) :
    Orderly ⟨.expression (.member offset object index), state⟩ := by
  let first : Moment := ⟨.expression object, state⟩
  let second : Moment := ⟨.expression index, first.after⟩
  have firstReady : first.Ready := wellFormed
  have secondReady : second.Ready := (leads firstReady).wellFormed
  have secondLeads := leads secondReady
  have behind := Leads.memberType secondLeads.wellFormed
    (secondLeads.covered (type_over object wellFormed)) (type_over index secondReady)
    ((inferExpression object).run state).1.1.offset
    ((inferExpression index).run first.after).1.1.offset
  apply Passes.begin firstReady
  apply Passes.begin secondReady
  apply Passes.done
  rw [after_expression (.member offset object index), inferExpression_member]
  exact behind.refines

theorem binary_orderly (left : Expression) (operator : String) (right : Expression) :
    Orderly ⟨.expression (.binary offset left operator right), state⟩ := by
  let first : Moment := ⟨.expression left, state⟩
  let second : Moment := ⟨.expression right, first.after⟩
  have firstReady : first.Ready := wellFormed
  have secondReady : second.Ready := (leads firstReady).wellFormed
  have secondLeads := leads secondReady
  apply Passes.begin firstReady
  apply Passes.begin secondReady
  apply Passes.done
  rw [after_expression (.binary offset left operator right)]
  by_cases sum : operator = "+"
  · subst sum
    rw [inferExpression_sum]
    exact (Leads.sumType secondLeads.wellFormed
      (secondLeads.covered (type_over left wellFormed)) (type_over right secondReady)
      _ _ _ _).refines
  · rw [inferExpression_binary offset left right state sum]
    exact (Leads.refuse secondLeads.wellFormed _ _).refines

theorem conditional_orderly (test consequent alternate : Expression) :
    Orderly ⟨.expression (.conditional offset test consequent alternate), state⟩ := by
  let first : Moment := ⟨.expression test, state⟩
  let tested := ((unify ((inferExpression test).run state).1.2 (.primitive .bool)
    ((inferExpression test).run state).1.1.offset).run first.after).2
  let second : Moment := ⟨.expression consequent, tested⟩
  let third : Moment := ⟨.expression alternate, second.after⟩
  have firstReady : first.Ready := wellFormed
  have testedLeads : Leads first.after tested :=
    .unify (leads firstReady).wellFormed (type_over test wellFormed) (by simp) _
  have secondReady : second.Ready := testedLeads.wellFormed
  have thirdReady : third.Ready := (leads secondReady).wellFormed
  have thirdLeads := leads thirdReady
  apply Passes.begin firstReady
  apply Passes.next testedLeads secondReady
  apply Passes.begin thirdReady
  apply Passes.done
  rw [after_expression (.conditional offset test consequent alternate),
    inferExpression_conditional]
  exact (Leads.branchType thirdLeads.wellFormed
    (thirdLeads.covered (type_over consequent secondReady)) (type_over alternate thirdReady)
    _ _).refines

/-- The body of a function is in a scope of its own, with more types of parameters. -/
theorem arrow_orderly (params : List Parameter) (result : Option Ascription) (body : Block) :
    Orderly ⟨.expression (.arrow offset params result body), state⟩ := by
  obtain ⟨opening, statements⟩ := body
  let inner : Moment := ⟨.statements statements, ((bindParameters params).run state).2⟩
  have entered : Leads state inner.state := by
    obtain ⟨types, store, ran, invents⟩ := bindParameters_invents params state wellFormed.sound
    change Leads state ((bindParameters params).run state).2
    rw [ran]
    exact ⟨wellFormed_bound wellFormed invents, List.subset_append_left _ _,
      .of_agrees invents.agrees wellFormed.sound⟩
  have innerReady : inner.Ready := entered.wellFormed
  have returnedOver : (returnedType ((inferStatements statements).run inner.state).1).Over
      inner.after.store.cells.size := by
    obtain ⟨inferred, after, bound, ran, covered, -⟩ :=
      inferStatements_walked statements inner.state innerReady
    rw [after_statements, ran]
    rcases returnedType_mem inferred with member | isVoid
    · exact covered _ member
    · simp [isVoid]
  apply Passes.next entered innerReady
  apply Passes.done
  rw [after_expression, inferExpression_arrow]
  exact (Leads.ascribe (leads innerReady).wellFormed returnedOver result offset).refines

theorem call_orderly (callee : Expression) (arguments : List Expression) :
    Orderly ⟨.expression (.call offset callee arguments), state⟩ := by
  let first : Moment := ⟨.expression callee, state⟩
  let reached := (solve (Solver.compress ((inferExpression callee).run state).1.2)).run first.after
  let second : Moment := ⟨.arguments arguments, reached.2⟩
  have firstReady : first.Ready := wellFormed
  obtain ⟨reachedLeads, reachedOver⟩ :=
    Leads.compress (leads firstReady).wellFormed (type_over callee wellFormed)
  have secondReady : second.Ready := reachedLeads.wellFormed
  have secondLeads := leads secondReady
  apply Passes.begin firstReady
  apply Passes.next reachedLeads secondReady
  apply Passes.done
  rw [after_expression (.call offset callee arguments), inferExpression_call]
  exact (Leads.callType secondLeads.wellFormed (secondLeads.covered reachedOver)
    (types_over arguments reachedLeads.wellFormed) _).refines

theorem elements_orderly {element : Ty} (covered : element.Over state.store.cells.size)
    (first : Expression) (rest : List Expression) :
    Orderly ⟨.elements element (first :: rest), state⟩ := by
  let head : Moment := ⟨.expression first, state⟩
  let unified := ((unify element ((inferExpression first).run state).1.2
    ((inferExpression first).run state).1.1.offset).run head.after).2
  let tail : Moment := ⟨.elements element rest, unified⟩
  have headReady : head.Ready := wellFormed
  have headLeads := leads headReady
  have unifiedLeads : Leads head.after unified :=
    .unify headLeads.wellFormed (headLeads.covered covered) (type_over first wellFormed) _
  have tailReady : tail.Ready :=
    ⟨unifiedLeads.wellFormed, unifiedLeads.covered (headLeads.covered covered)⟩
  apply Passes.begin headReady
  apply Passes.next unifiedLeads tailReady
  exact .finish (leads tailReady).wellFormed

theorem arguments_orderly (first : Expression) (rest : List Expression) :
    Orderly ⟨.arguments (first :: rest), state⟩ := by
  let head : Moment := ⟨.expression first, state⟩
  let tail : Moment := ⟨.arguments rest, head.after⟩
  have headReady : head.Ready := wellFormed
  have tailReady : tail.Ready := (leads headReady).wellFormed
  apply Passes.begin headReady
  apply Passes.begin tailReady
  exact .finish (leads tailReady).wellFormed

theorem constant_orderly (id : Identifier) (ascription : Option Ascription)
    (initial : Expression) (inferred : Option Ty) :
    Orderly ⟨.statement (.constant offset id ascription initial inferred), state⟩ := by
  let value : Moment := ⟨.expression initial, state⟩
  have ready : value.Ready := wellFormed
  apply Passes.begin ready
  apply Passes.done
  rw [after_statement, inferStatement_constant]
  exact (Leads.ascribe (leads ready).wellFormed (type_over initial wellFormed) ascription _).refines

theorem returning_orderly (argument : Expression) (inferred : Option Ty) :
    Orderly ⟨.statement (.returning offset (some argument) inferred), state⟩ := by
  let value : Moment := ⟨.expression argument, state⟩
  have ready : value.Ready := wellFormed
  apply Passes.begin ready
  exact .finish (leads ready).wellFormed

theorem statements_orderly (first : Statement) (rest : List Statement) :
    Orderly ⟨.statements (first :: rest), state⟩ := by
  let head : Moment := ⟨.statement first, state⟩
  let tail : Moment := ⟨.statements rest, head.after⟩
  have headReady : head.Ready := wellFormed
  have tailReady : tail.Ready := (leads headReady).wellFormed
  apply Passes.begin headReady
  apply Passes.begin tailReady
  exact .finish (leads tailReady).wellFormed

end Parts

/-- Every walk passes through its parts. -/
theorem orderly {whole : Moment} (ready : whole.Ready) : Orderly whole := by
  have alone : Passes whole.state [] whole.after.store := .done (leads ready).refines
  obtain ⟨subject, state⟩ := whole
  match subject with
  | .expression (.number _ _) | .expression (.string _ _) | .expression (.boolean _ _)
  | .expression (.identifier _) | .expression (.array _ []) | .elements _ [] | .arguments []
  | .statement (.returning _ none _) | .statements [] => exact alone
  | .expression (.array offset (first :: rest)) => exact array_orderly offset ready first rest
  | .expression (.member offset object index) => exact member_orderly offset ready object index
  | .expression (.binary offset left operator right) =>
    exact binary_orderly offset ready left operator right
  | .expression (.conditional offset test consequent alternate) =>
    exact conditional_orderly offset ready test consequent alternate
  | .expression (.arrow offset params result body) =>
    exact arrow_orderly offset ready params result body
  | .expression (.call offset callee arguments) =>
    exact call_orderly offset ready callee arguments
  | .elements element (first :: rest) => exact elements_orderly ready.1 ready.2 first rest
  | .arguments (first :: rest) => exact arguments_orderly ready first rest
  | .statement (.constant offset id ascription initial inferred) =>
    exact constant_orderly offset ready id ascription initial inferred
  | .statement (.returning offset (some argument) inferred) =>
    exact returning_orderly offset ready argument inferred
  | .statements (first :: rest) => exact statements_orderly ready first rest

/-- All walks directly in one are inside it. -/
theorem within_of_mem_parts {whole part : Moment} (ready : whole.Ready)
    (isPart : part ∈ whole.parts) : Within whole part :=
  (orderly ready).within (List.Subset.refl _) part isPart

/-- All walks that are visited in one are inside it. -/
theorem Visits.within {whole part : Moment} (visits : Visits whole part) (ready : whole.Ready) :
    Within whole part := by
  induction visits with
  | refl => exact ⟨ready, List.Subset.refl _, (Leads.refl (leads ready).wellFormed).refines⟩
  | tail _ isPart inductionHypothesis =>
    exact inductionHypothesis.trans (within_of_mem_parts inductionHypothesis.ready isPart)

/-! ## All expressions are visited -/

/-- The expressions in the part of the tree that a walk is over. -/
def expressions : Moment → List Expression
  | ⟨.expression root, _⟩ => root :: root.inside
  | ⟨.elements _ listed, _⟩ | ⟨.arguments listed, _⟩ => Expression.listed listed
  | ⟨.statement root, _⟩ => root.expressions
  | ⟨.statements roots, _⟩ => Statement.expressionsOf roots

/-- The size of the part of the tree that a walk is over. -/
noncomputable def size : Moment → Nat
  | ⟨.expression root, _⟩ => sizeOf root
  | ⟨.elements _ listed, _⟩ | ⟨.arguments listed, _⟩ => sizeOf listed
  | ⟨.statement root, _⟩ => sizeOf root
  | ⟨.statements roots, _⟩ => sizeOf roots

/-- An expression in a walk is what the walk is over, or in a walk directly in it. -/
theorem mem_expressions {whole : Moment} {inner : Expression} :
    inner ∈ whole.expressions ↔
      whole.subject = .expression inner ∨ ∃ part ∈ whole.parts, inner ∈ part.expressions := by
  obtain ⟨subject, state⟩ := whole
  match subject with
  | .expression (.number _ _) | .expression (.string _ _) | .expression (.boolean _ _)
  | .expression (.identifier _) | .expression (.array _ []) | .expression (.array _ (_ :: _))
  | .expression (.member _ _ _) | .expression (.binary _ _ _ _)
  | .expression (.conditional _ _ _ _) | .expression (.arrow _ _ _ ⟨_, _⟩)
  | .expression (.call _ _ _) | .elements _ [] | .elements _ (_ :: _) | .arguments []
  | .arguments (_ :: _) | .statement (.constant _ _ _ _ _) | .statement (.returning _ none _)
  | .statement (.returning _ (some _) _) | .statements [] | .statements (_ :: _) =>
    simp [expressions, parts, Expression.inside, Expression.listed, Statement.expressions,
      Statement.expressionsOf, eq_comm, or_assoc]

/-- The walks in a walk are over smaller parts of the tree. -/
theorem size_lt {whole part : Moment} (isPart : part ∈ whole.parts) : part.size < whole.size := by
  obtain ⟨subject, state⟩ := whole
  match subject with
  | .expression (.array _ (_ :: _))
  | .expression (.member _ _ _) | .expression (.binary _ _ _ _)
  | .expression (.conditional _ _ _ _) | .expression (.arrow _ _ _ ⟨_, _⟩)
  | .expression (.call _ _ _) | .elements _ (_ :: _)
  | .arguments (_ :: _) | .statement (.constant _ _ _ _ _)
  | .statement (.returning _ (some _) _) | .statements (_ :: _) =>
    simp only [parts, List.mem_cons, List.not_mem_nil, or_false] at isPart
    rcases isPart with rfl | rfl | rfl <;> simp [size] <;> omega

/-- The walk over a part of the tree comes to every expression in it, and to no other. -/
theorem mem_expressions_iff {whole : Moment} {inner : Expression} :
    inner ∈ whole.expressions ↔ ∃ state, Visits whole ⟨.expression inner, state⟩ := by
  constructor
  · intro inside
    rcases mem_expressions.mp inside with here | ⟨part, isPart, inside⟩
    · obtain ⟨subject, state⟩ := whole
      obtain rfl : subject = .expression inner := here
      exact ⟨state, .refl⟩
    · have smaller := size_lt isPart
      obtain ⟨state, visits⟩ := mem_expressions_iff.mp inside
      exact ⟨state, .head isPart visits⟩
  · rintro ⟨state, visits⟩
    induction visits using Relation.ReflTransGen.head_induction_on with
    | refl => exact mem_expressions.mpr (.inl rfl)
    | head isPart _ inductionHypothesis =>
      exact mem_expressions.mpr (.inr ⟨_, isPart, inductionHypothesis⟩)
  termination_by whole.size

end Moment

end Inferrer

end ArrowScript
