import ArrowScript.Proofs.Inference.Moments
import ArrowScript.Proofs.Scope.Agreement
import ArrowScript.Proofs.Scope.Sites

/-!
# The places of an inference

A moment of the inference says in which state a walk comes to a part of the tree, and lexical
scoping says which declaring nodes are around that part. A place says both. From one place to
the places directly in it the walk goes on as the moments do, and the levels grow as those of
lexical scoping do.

The events of lexical scoping and those of the inference stand one behind the other in the
same order. So every use that lexical scoping meets has a place, and the environment of the
inference is there what has been bound at the declaring nodes of the levels around it.
-/

namespace ArrowScript

/-! ## What the events list -/

namespace ScopeEvent

variable {Found Given : Type}

/-- The declaring node at an event of the inference, with the type that is bound there. -/
def binding? : Inferrer.Event → Option (Declarer × Ty)
  | .used _ _ => none
  | .declared declarer type => some (declarer, type)

/-- Every event is at a use or at a declaring node. -/
theorem length_eq (events : List (ScopeEvent Found Given)) :
    events.length = (events.filterMap use?).length + (events.filterMap declarer?).length := by
  induction events with
  | nil => rfl
  | cons event rest inductionHypothesis =>
    cases event with
    | used use found =>
      rw [List.length_cons, inductionHypothesis, Nat.add_right_comm]
      rfl
    | declared declarer given =>
      rw [List.length_cons, inductionHypothesis, Nat.add_assoc]
      rfl

/-- There is a binding for every declaring node. -/
theorem filterMap_binding? (events : List Inferrer.Event) :
    (events.filterMap binding?).map Prod.fst = events.filterMap declarer? := by
  rw [List.map_filterMap]
  congr 1
  funext event
  cases event <;> rfl

end ScopeEvent

open ScopeEvent (use? declarer? binding?)

namespace Inferrer

/-- The events are at these uses and at these declaring nodes. -/
def Covers (events : List Event) (uses : List Identifier) (declarers : List Declarer) : Prop :=
  events.filterMap use? = uses ∧ events.filterMap declarer? = declarers

/-- Events that come one after the other. -/
theorem Covers.append {events others : List Event} {uses moreUses : List Identifier}
    {declarers more : List Declarer} (first : Covers events uses declarers)
    (second : Covers others moreUses more) :
    Covers (events ++ others) (uses ++ moreUses) (declarers ++ more) := by
  rw [Covers, List.filterMap_append, List.filterMap_append, first.1, first.2, second.1, second.2]
  exact ⟨rfl, rfl⟩

/-- The events at parameters. -/
theorem parameterEvents_covers (params : List Parameter) (inference : Inference) :
    Covers (parameterEvents params inference) [] (params.map (·.declarer)) := by
  induction params generalizing inference with
  | nil => exact ⟨rfl, rfl⟩
  | cons param rest inductionHypothesis =>
    obtain ⟨uses, declarers⟩ := inductionHypothesis ((bindParameters [param]).run inference).2
    exact ⟨uses, congrArg (param.declarer :: ·) declarers⟩

mutual

/-- The events in an expression. -/
theorem expressionEvents_covers (expression : Expression) (inference : Inference) :
    Covers (expressionEvents expression inference) expression.uses expression.declarers := by
  match expression with
  | .number _ _ | .string _ _ | .boolean _ _ | .array _ [] | .identifier _ => exact ⟨rfl, rfl⟩
  | .array _ (first :: rest) =>
    exact (expressionEvents_covers first _).append (elementEvents_covers _ rest _)
  | .member _ object index =>
    exact (expressionEvents_covers object _).append (expressionEvents_covers index _)
  | .binary _ left _ right =>
    exact (expressionEvents_covers left _).append (expressionEvents_covers right _)
  | .conditional _ test consequent alternate =>
    exact (expressionEvents_covers test _).append
      ((expressionEvents_covers consequent _).append (expressionEvents_covers alternate _))
  | .arrow _ params _ { statements, .. } =>
    exact (parameterEvents_covers params _).append (statementsEvents_covers statements _)
  | .call _ callee arguments =>
    exact (expressionEvents_covers callee _).append (argumentEvents_covers arguments _)

/-- The events in the further elements of an array. -/
theorem elementEvents_covers (element : Ty) (expressions : List Expression)
    (inference : Inference) :
    Covers (elementEvents element expressions inference) (Expression.usesOf expressions)
      (Expression.declarersOf expressions) := by
  match expressions with
  | [] => exact ⟨rfl, rfl⟩
  | first :: rest => exact (expressionEvents_covers first _).append (elementEvents_covers _ rest _)

/-- The events in the arguments of a call. -/
theorem argumentEvents_covers (expressions : List Expression) (inference : Inference) :
    Covers (argumentEvents expressions inference) (Expression.usesOf expressions)
      (Expression.declarersOf expressions) := by
  match expressions with
  | [] => exact ⟨rfl, rfl⟩
  | first :: rest => exact (expressionEvents_covers first _).append (argumentEvents_covers rest _)

/-- The events in a statement. -/
theorem statementEvents_covers (statement : Statement) (inference : Inference) :
    Covers (statementEvents statement inference) statement.uses statement.declarers := by
  match statement with
  | .constant offset id _ initial _ =>
    obtain ⟨uses, declarers⟩ := expressionEvents_covers initial inference
    rw [Covers, statementEvents, List.filterMap_append, List.filterMap_append, uses, declarers]
    exact ⟨List.append_nil _, rfl⟩
  | .returning _ none _ => exact ⟨rfl, rfl⟩
  | .returning _ (some argument) _ => exact expressionEvents_covers argument _

/-- The events in several statements. -/
theorem statementsEvents_covers (statements : List Statement) (inference : Inference) :
    Covers (statementsEvents statements inference) (Statement.usesOf statements)
      (Statement.declarersOf statements) := by
  match statements with
  | [] => exact ⟨rfl, rfl⟩
  | first :: rest =>
    exact (statementEvents_covers first _).append (statementsEvents_covers rest _)

end

/-! ## Places -/

/-- Where lexical scoping is: the position of the next declaring node, and the levels around,
the innermost one apart. -/
structure Frame where
  start : Nat
  level : Level
  outer : List Level

namespace Frame

/-- The levels from the inside outwards. -/
def levels (frame : Frame) : List Level := frame.level :: frame.outer

/-- Behind some declaring nodes that are in functions. -/
def past (frame : Frame) (declarers : List Declarer) : Frame :=
  { frame with start := frame.start + declarers.length }

/-- At the body of a function. -/
def inside (frame : Frame) (params : List Parameter) : Frame where
  start := frame.start + params.length
  level := Parameter.sites frame.start params
  outer := frame.levels

/-- Behind a statement. -/
def behind (frame : Frame) (statement : Statement) : Frame where
  start := frame.start + statement.declarers.length
  level := frame.level ++ statement.sites frame.start
  outer := frame.outer

/-- The declaring nodes around, from the inside outwards and from the last to the first. -/
def sites (frame : Frame) : List Site := frame.levels.flatMap List.reverse

end Frame

namespace Subject

/-- Where lexical scoping is at the parts of what a walk is over. -/
def frames (frame : Frame) : Subject → List Frame
  | .expression (.array _ (first :: _)) | .expression (.member _ first _)
  | .expression (.binary _ first _ _) | .expression (.call _ first _)
  | .elements _ (first :: _) | .arguments (first :: _) => [frame, frame.past first.declarers]
  | .expression (.conditional _ test consequent _) =>
    [frame, frame.past test.declarers, (frame.past test.declarers).past consequent.declarers]
  | .expression (.arrow _ params _ _) => [frame.inside params]
  | .statement _ => [frame]
  | .statements (first :: _) => [frame, frame.behind first]
  | _ => []

/-- The events of lexical scoping in what a walk is over. -/
def scoping (frame : Frame) : Subject → List LexicalEvent
  | .expression root => root.scoping frame.start frame.levels
  | .elements _ listed | .arguments listed =>
    Expression.scopingOf frame.start frame.levels listed
  | .statement root => root.scoping frame.start frame.level frame.outer
  | .statements roots => Statement.scopingOf frame.start frame.level frame.outer roots

/-- The declaring nodes in what a walk is over. -/
def declarers : Subject → List Declarer
  | .expression root => root.declarers
  | .elements _ listed | .arguments listed => Expression.declarersOf listed
  | .statement root => root.declarers
  | .statements roots => Statement.declarersOf roots

end Subject

/-- The events of the inference in a walk. -/
def Moment.events : Moment → List Event
  | ⟨.expression root, state⟩ => expressionEvents root state
  | ⟨.elements element listed, state⟩ => elementEvents element listed state
  | ⟨.arguments listed, state⟩ => argumentEvents listed state
  | ⟨.statement root, state⟩ => statementEvents root state
  | ⟨.statements roots, state⟩ => statementsEvents roots state

/-- A moment with the declaring nodes around it. -/
structure Place where
  moment : Moment
  frame : Frame

namespace Place

/-- The places directly in a place, in their order. -/
def parts (place : Place) : List Place :=
  place.moment.parts.zipWith mk (place.moment.subject.frames place.frame)

/-- One place is visited in the walk that begins at another. -/
def Visits : Place → Place → Prop :=
  Relation.ReflTransGen fun whole part => part ∈ whole.parts

/-- The events of lexical scoping at a place. -/
def scoping (place : Place) : List LexicalEvent := place.moment.subject.scoping place.frame

/-- The events of the inference at a place. -/
def events (place : Place) : List Event := place.moment.events

/-- A place directly in another is at a moment directly in that of the other. -/
theorem moment_of_mem_parts {whole part : Place} (isPart : part ∈ whole.parts) :
    part.moment ∈ whole.moment.parts := by
  obtain ⟨index, inside, rfl⟩ := List.mem_iff_getElem.mp isPart
  simp only [parts, List.getElem_zipWith]
  exact List.getElem_mem _

/-- A part of a place with the events ahead of it, whose declaring nodes are counted. -/
structure Part (start : Nat) (lexical : List LexicalEvent) (inferred : List Event) (part : Place)
    (ahead : Nat) : Prop where
  inside : ahead ≤ inferred.length
  scoping : part.scoping <+: lexical.drop ahead
  events : part.events <+: inferred.drop ahead
  start_eq : part.frame.start = start + ((inferred.take ahead).filterMap binding?).length

/-- Some places stand one behind the other in the events of both walks. Every use in the events
is at one of the places. -/
inductive Series : Nat → List Place → List LexicalEvent → List Event → Prop
  | done {start : Nat} {lexical : List LexicalEvent} {inferred : List Event}
    (unused : lexical.filterMap use? = []) : Series start [] lexical inferred
  | next {start : Nat} {part : Place} {rest : List Place} {lexical : List LexicalEvent}
    {inferred : List Event} (begins : part.frame.start = start)
    (further : Series (start + part.moment.subject.declarers.length) rest lexical inferred) :
    Series start (part :: rest) (part.scoping ++ lexical) (part.events ++ inferred)
  | skip {start : Nat} {parts : List Place} {ahead lexical : List LexicalEvent}
    {before inferred : List Event} (unused : ahead.filterMap use? = [])
    (same : before.length = ahead.length)
    (further : Series (start + (before.filterMap binding?).length) parts lexical inferred) :
    Series start parts (ahead ++ lexical) (before ++ inferred)

/-- The events at a place are at its uses and its declaring nodes. -/
theorem events_covers (place : Place) :
    ∃ uses, Covers place.events uses place.moment.subject.declarers ∧
      place.scoping.filterMap use? = uses ∧
      place.scoping.filterMap declarer? = place.moment.subject.declarers := by
  obtain ⟨⟨subject, state⟩, frame⟩ := place
  cases subject with
  | expression root =>
    have lists := Expression.scoping_lists (fun _ => 0) frame.start frame.levels root
    exact ⟨_, expressionEvents_covers root state, lists.uses.symm, lists.declarers.symm⟩
  | elements element listed =>
    have lists := Expression.scopingOf_lists (fun _ => 0) frame.start frame.levels listed
    exact ⟨_, elementEvents_covers element listed state, lists.uses.symm, lists.declarers.symm⟩
  | arguments listed =>
    have lists := Expression.scopingOf_lists (fun _ => 0) frame.start frame.levels listed
    exact ⟨_, argumentEvents_covers listed state, lists.uses.symm, lists.declarers.symm⟩
  | statement root =>
    have lists := Statement.scoping_lists (fun _ => 0) frame.start frame.level frame.outer root
    exact ⟨_, statementEvents_covers root state, lists.uses.symm, lists.declarers.symm⟩
  | statements roots =>
    have lists := Statement.scopingOf_lists (fun _ => 0) frame.start frame.level frame.outer roots
    exact ⟨_, statementsEvents_covers roots state, lists.uses.symm, lists.declarers.symm⟩

/-- At a place there are as many events of both walks. -/
theorem length_events (place : Place) : place.events.length = place.scoping.length := by
  obtain ⟨uses, ⟨found, declared⟩, same, also⟩ := place.events_covers
  rw [ScopeEvent.length_eq, ScopeEvent.length_eq, found, declared, same, also]

/-- The bindings at a place are at its declaring nodes. -/
theorem length_bindings (place : Place) :
    (place.events.filterMap binding?).length = place.moment.subject.declarers.length := by
  obtain ⟨uses, ⟨-, declared⟩, -, -⟩ := place.events_covers
  rw [← declared, ← ScopeEvent.filterMap_binding?, List.length_map]

/-- Every use in a series is at one of its places. -/
theorem Series.descend {start : Nat} {parts : List Place} {lexical : List LexicalEvent}
    {inferred : List Event} (series : Series start parts lexical inferred) {index : Nat}
    {use : Identifier} {found : Option Site} (here : lexical[index]? = some (.used use found)) :
    ∃ part ∈ parts, ∃ ahead within, index = ahead + within ∧
      Part start lexical inferred part ahead ∧ part.scoping[within]? = some (.used use found) := by
  induction series generalizing index with
  | done unused =>
    exact nomatch List.filterMap_eq_nil_iff.mp unused _ (List.mem_of_getElem? here)
  | @next start part rest lexical inferred begins further inductionHypothesis =>
    by_cases inside : index < part.scoping.length
    · rw [List.getElem?_append_left inside] at here
      refine ⟨part, List.mem_cons_self, 0, index, (Nat.zero_add _).symm, ?_, here⟩
      exact ⟨Nat.zero_le _, List.prefix_append _ _, List.prefix_append _ _, begins⟩
    · rw [Nat.not_lt] at inside
      rw [List.getElem?_append_right inside] at here
      obtain ⟨inner, among, ahead, within, place, isPart, found⟩ := inductionHypothesis here
      refine ⟨inner, List.mem_cons_of_mem _ among, part.scoping.length + ahead, within, ?_, ?_,
        found⟩
      · omega
      · constructor
        · rw [List.length_append, part.length_events]
          exact Nat.add_le_add_left isPart.inside _
        · rw [← List.drop_drop, List.drop_left]
          exact isPart.scoping
        · rw [← part.length_events, ← List.drop_drop, List.drop_left]
          exact isPart.events
        · rw [isPart.start_eq, ← part.length_events, List.take_length_add_append,
            List.filterMap_append, List.length_append, part.length_bindings, Nat.add_assoc]
  | @skip start parts front lexical before inferred unused same further inductionHypothesis =>
    by_cases inside : index < front.length
    · rw [List.getElem?_append_left inside] at here
      exact nomatch List.filterMap_eq_nil_iff.mp unused _ (List.mem_of_getElem? here)
    · rw [Nat.not_lt] at inside
      rw [List.getElem?_append_right inside] at here
      obtain ⟨inner, among, ahead, within, place, isPart, found⟩ := inductionHypothesis here
      refine ⟨inner, among, front.length + ahead, within, by omega, ?_, found⟩
      constructor
      · rw [List.length_append, same]
        exact Nat.add_le_add_left isPart.inside _
      · rw [← List.drop_drop, List.drop_left]
        exact isPart.scoping
      · rw [← same, ← List.drop_drop, List.drop_left]
        exact isPart.events
      · rw [isPart.start_eq, ← same, List.take_length_add_append, List.filterMap_append,
          List.length_append, Nat.add_assoc]

/-- The last part of a place. -/
theorem Series.last {start : Nat} {part : Place} (begins : part.frame.start = start) :
    Series start [part] part.scoping part.events := by
  have series : Series start [part] (part.scoping ++ []) (part.events ++ []) :=
    .next begins (.done rfl)
  rwa [List.append_nil, List.append_nil] at series

/-- The parts of a place stand one behind the other, unless it is a use itself. -/
theorem series (place : Place)
    (composed : ∀ use, place.moment.subject ≠ .expression (.identifier use)) :
    Series place.frame.start place.parts place.scoping place.events := by
  obtain ⟨⟨subject, state⟩, frame⟩ := place
  match subject with
  | .expression (.identifier use) => exact absurd rfl (composed use)
  | .expression (.number _ _) | .expression (.string _ _) | .expression (.boolean _ _)
  | .expression (.array _ []) | .elements _ [] | .arguments [] | .statement (.returning _ none _)
  | .statements [] => exact .done rfl
  | .expression (.array _ (first :: rest)) | .expression (.member _ first _)
  | .expression (.binary _ first _ _) | .expression (.call _ first _)
  | .elements _ (first :: rest) | .arguments (first :: rest) =>
    exact .next rfl (.last rfl)
  | .expression (.conditional _ test consequent alternate) =>
    exact .next rfl (.next rfl (.last rfl))
  | .expression (.arrow _ params _ { statements, .. }) =>
    obtain ⟨uses, declarers⟩ := parameterEvents_covers params state
    have lists := Parameter.scoping_lists (fun _ => 0) frame.start [] params
    have count : (parameterEvents params state).length = params.length := by
      rw [ScopeEvent.length_eq, uses, declarers, List.length_map]
      exact Nat.zero_add _
    have bindings : ((parameterEvents params state).filterMap binding?).length = params.length := by
      rw [← List.length_map Prod.fst, ScopeEvent.filterMap_binding?, declarers, List.length_map]
    apply Series.skip lists.uses.symm
    · rw [count, ScopeEvent.length_eq, ← lists.uses, ← lists.declarers, List.length_map]
      exact (Nat.zero_add _).symm
    · rw [bindings]
      exact .last rfl
  | .statement (.constant offset id ascription initial inferred) =>
    exact .next rfl (.done rfl)
  | .statement (.returning _ (some argument) _) => exact .last rfl
  | .statements (first :: rest) => exact .next rfl (.last rfl)

end Place

end Inferrer

end ArrowScript
