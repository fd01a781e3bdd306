import ArrowScript.Proofs.Inference.Monomorphism
import ArrowScript.Proofs.Inference.Places
import ArrowScript.Proofs.Scope.Linking

/-!
# Names that are declared twice

If a name is declared twice in one scope, the name resolution refuses the second declaration,
and the uses behind it are linked to the first one. The inference binds both types all the
same, and the later one hides the other. So what a use is an instance of is the type that is
bound at the last declaration before it, in the innermost scope that has one.

What carries this is that the environment of the inference is, entry by entry, what has been
bound at the declaring nodes around the place, from the inside outwards and from the last to
the first.
-/

namespace ArrowScript

open ScopeEvent (binding?)
open Inferrer Inferrer.Moment Store

/-! ## The last declaration of a name -/

/-- The last declaration of a name in a level. -/
def Level.last? (level : Level) (name : String) : Option Site :=
  level.reverse.find? (·.declarer.name == name)

/-- The last declaration of a name in the innermost level that has one. -/
def latestSite (levels : List Level) (name : String) : Option Site :=
  levels.findSome? (Level.last? · name)

/-- If a name refers to the first declaration in a level, there is a last one in this level. -/
theorem latestSite_of_lexicalSite {levels : List Level} {name : String} {site : Site}
    (found : lexicalSite levels name = some site) :
    ∃ level ∈ levels, ∃ latest, level.first? name = some site ∧ level.last? name = some latest ∧
      latestSite levels name = some latest := by
  induction levels with
  | nil => exact nomatch found
  | cons level outer inductionHypothesis =>
    rw [lexicalSite, List.findSome?_cons] at found
    cases first : level.first? name with
    | some here =>
      rw [first] at found
      obtain rfl := Option.some.inj found
      obtain ⟨latest, isLatest⟩ : ∃ latest, level.last? name = some latest := by
        rw [← Option.isSome_iff_exists, Level.last?, List.find?_isSome]
        have named := List.find?_some first
        exact ⟨here, List.mem_reverse.mpr (List.mem_of_find?_eq_some first), named⟩
      refine ⟨level, List.mem_cons_self, latest, first, isLatest, ?_⟩
      rw [latestSite, List.findSome?_cons, isLatest]
    | none =>
      rw [first] at found
      obtain ⟨around, among, latest, isFirst, isLast, isLatest⟩ := inductionHypothesis found
      refine ⟨around, List.mem_cons_of_mem _ among, latest, isFirst, isLast, ?_⟩
      have absent : level.last? name = none := by
        rw [Level.first?, List.find?_eq_none] at first
        rw [Level.last?, List.find?_eq_none]
        intro other isOther
        exact first other (List.mem_reverse.mp isOther)
      rwa [latestSite, List.findSome?_cons, absent]

namespace Program

/-- The types that the inference binds, in the order of the declaring nodes. -/
def bindings (program : Program) : List (Declarer × Ty) :=
  program.inferenceEvents.filterMap binding?

/-- The inference binds a type at a declaring node. -/
def BindsAt (program : Program) (site : Site) (type : Ty) : Prop :=
  program.bindings[site.position]? = some (site.declarer, type)

end Program

namespace Inferrer

variable {bindings : List (Declarer × Ty)} {undetermined more : List Ty} {sites : List Site}
  {environment : List (String × Ty)}

/-! ## The environment at a place -/

/-- An entry of the environment is what is bound at a declaring node. The type of a parameter
is undetermined. -/
structure Stands (bindings : List (Declarer × Ty)) (undetermined : List Ty) (site : Site)
    (entry : String × Ty) : Prop where
  named : entry.1 = site.declarer.name
  bound : bindings[site.position]? = some (site.declarer, entry.2)
  kept : site.declarer.kind = .parameter → entry.2 ∈ undetermined

/-- The environment is what is bound at some declaring nodes. -/
abbrev Entered (bindings : List (Declarer × Ty)) (undetermined : List Ty) (sites : List Site)
    (environment : List (String × Ty)) : Prop :=
  List.Forall₂ (Stands bindings undetermined) sites environment

/-- It still is when more types are undetermined. -/
theorem Entered.mono (entered : Entered bindings undetermined sites environment)
    (subset : undetermined ⊆ more) : Entered bindings more sites environment :=
  entered.imp fun _ _ stands => { stands with kept := fun kind => subset (stands.kept kind) }

/-- A name is found with the type that is bound at the first of the declaring nodes with this
name. -/
theorem Entered.lookup (entered : Entered bindings undetermined sites environment)
    {name : String} {site : Site} (first : sites.find? (·.declarer.name == name) = some site) :
    ∃ type, environment.lookup name = some type ∧
      bindings[site.position]? = some (site.declarer, type) ∧
      (site.declarer.kind = .parameter → type ∈ undetermined) := by
  induction entered with
  | nil => exact nomatch first
  | @cons here entry sites entries stands _ inductionHypothesis =>
    obtain ⟨known, type⟩ := entry
    obtain rfl : known = here.declarer.name := stands.named
    rw [List.lookup_cons]
    by_cases same : here.declarer.name = name
    · rw [List.find?_cons, beq_iff_eq.mpr same] at first
      obtain rfl := Option.some.inj first
      rw [beq_iff_eq.mpr same.symm]
      exact ⟨type, rfl, stands.bound, stands.kept⟩
    · rw [List.find?_cons, beq_eq_false_iff_ne.mpr same] at first
      rw [beq_eq_false_iff_ne.mpr (Ne.symm same)]
      exact inductionHypothesis first

/-- It still is behind a walk that binds nothing. -/
theorem Entered.walked {before after : Inference} {known made : List VariableId}
    (entered : Entered bindings before.undetermined sites before.environment)
    (walked : Walked before after known made []) :
    Entered bindings after.undetermined sites after.environment := by
  rw [walked.undetermined, walked.environment]
  exact entered

/-- It still is behind an expression. -/
theorem Entered.expression {inference : Inference} (wellFormed : inference.WellFormed)
    (entered : Entered bindings inference.undetermined sites inference.environment)
    (root : Expression) :
    Entered bindings ((inferExpression root).run inference).2.undetermined sites
      ((inferExpression root).run inference).2.environment := by
  obtain ⟨typed, type, after, ran, -, walked⟩ := inferExpression_walked root inference wellFormed
  rw [ran]
  exact entered.walked walked

/-- What is bound behind some other bindings is among all of them. -/
theorem bound_of_prefix {given : List (Declarer × Ty)} {start index : Nat}
    {entry : Declarer × Ty} (front : given <+: bindings.drop start)
    (here : given[index]? = some entry) : bindings[start + index]? = some entry := by
  obtain ⟨rest, whole⟩ := front
  obtain ⟨inside, -⟩ := List.getElem?_eq_some_iff.mp here
  rw [← List.getElem?_drop, ← whole, List.getElem?_append_left inside, here]

/-- The parameters of a function are entered one by one. -/
theorem parameters_entered (params : List Parameter) {inference : Inference} {start : Nat}
    (sound : inference.store.Sound)
    (entered : Entered bindings inference.undetermined sites inference.environment)
    (given : (parameterEvents params inference).filterMap binding? <+: bindings.drop start) :
    Entered bindings ((bindParameters params).run inference).2.undetermined
      ((Parameter.sites start params).reverse ++ sites)
      ((bindParameters params).run inference).2.environment := by
  induction params generalizing inference start sites with
  | nil => exact entered
  | cons param rest inductionHypothesis =>
    obtain ⟨type, store, ran, invents⟩ := parameterType_invents param inference sound
    let bound : Inference :=
      { inference with
        store
        environment := (param.name, type) :: inference.environment
        undetermined := inference.undetermined ++ [type] }
    have events : parameterEvents (param :: rest) inference =
        .declared param.declarer type :: parameterEvents rest bound := by
      rw [parameterEvents, bindParameters_cons, ran]
      rfl
    have bind : ((bindParameters (param :: rest)).run inference).2 =
        ((bindParameters rest).run bound).2 := by
      rw [bindParameters_cons, ran]
    rw [events, List.filterMap_cons] at given
    have here : Entered bindings bound.undetermined (⟨start, param.declarer⟩ :: sites)
        bound.environment := by
      constructor
      · have first : bindings[start + 0]? = some (param.declarer, type) := bound_of_prefix given rfl
        exact ⟨rfl, first, fun _ => List.mem_append_right _ List.mem_cons_self⟩
      · exact entered.mono (List.subset_append_left _ _)
    have further : (parameterEvents rest bound).filterMap binding? <+:
        bindings.drop (start + 1) := by
      rw [← List.drop_drop]
      exact given.drop 1
    have others := inductionHypothesis (invents.agrees.sound sound) here further
    rw [bind, Parameter.sites, List.reverse_cons, List.append_assoc]
    exact others

/-- A constant is entered behind its initializer. -/
theorem statement_entered (statement : Statement) {inference : Inference} {start : Nat}
    (wellFormed : inference.WellFormed)
    (entered : Entered bindings inference.undetermined sites inference.environment)
    (given : (statementEvents statement inference).filterMap binding? <+: bindings.drop start) :
    Entered bindings ((inferStatement statement).run inference).2.undetermined
      ((statement.sites start).reverse ++ sites)
      ((inferStatement statement).run inference).2.environment := by
  match statement with
  | .constant offset id ascription initial earlier =>
    obtain ⟨typed, type, first, ran, walks⟩ := inferExpression_walked initial inference wellFormed
    obtain ⟨ascribed, after, whole, -, walked⟩ :=
      constant_walked wellFormed offset id ascription earlier ran walks
    have count : ((expressionEvents initial inference).filterMap binding?).length =
        initial.declarers.length := by
      rw [← (expressionEvents_covers initial inference).2, ← ScopeEvent.filterMap_binding?,
        List.length_map]
    rw [statementEvents, whole, List.filterMap_append] at given
    rw [whole, walked.environment, walked.undetermined]
    refine .cons ⟨rfl, bound_of_prefix given ?_, nofun⟩ entered
    rw [← count, List.getElem?_append_right le_rfl, Nat.sub_self]
    rfl
  | .returning offset none earlier => exact entered
  | .returning offset (some argument) earlier =>
    simp only [inferStatement_returning]
    exact entered.expression wellFormed argument

/-- What is known at a place: the environment is what is bound at the declaring nodes around. -/
def Place.Known (bindings : List (Declarer × Ty)) (place : Place) : Prop :=
  Entered bindings place.moment.state.undetermined place.frame.sites
    place.moment.state.environment

/-- It is known at the parts of a place. -/
theorem Place.Known.part {whole part : Place} (known : whole.Known bindings)
    (ready : whole.moment.Ready)
    (given : whole.events.filterMap binding? <+: bindings.drop whole.frame.start)
    (isPart : part ∈ whole.parts) : part.Known bindings := by
  obtain ⟨⟨subject, state⟩, frame⟩ := whole
  have entered : Entered bindings state.undetermined frame.sites state.environment := known
  match subject with
  | .expression (.number _ _) | .expression (.string _ _) | .expression (.boolean _ _)
  | .expression (.identifier _) | .expression (.array _ []) | .elements _ [] | .arguments []
  | .statement (.returning _ none _) | .statements [] => exact nomatch isPart
  | .expression (.array _ (first :: rest)) | .expression (.member _ first _)
  | .expression (.binary _ first _ _) | .expression (.call _ first _)
  | .arguments (first :: rest) =>
    rcases List.mem_cons.mp isPart with rfl | isPart
    · exact entered
    · obtain rfl := List.mem_singleton.mp isPart
      exact entered.expression ready first
  | .elements element (first :: rest) =>
    rcases List.mem_cons.mp isPart with rfl | isPart
    · exact entered
    · obtain rfl := List.mem_singleton.mp isPart
      exact entered.expression ready.1 first
  | .expression (.conditional _ test consequent alternate) =>
    have second := within_of_mem_parts ready (List.mem_cons_of_mem _ List.mem_cons_self)
    have tested := entered.expression ready test
    rcases List.mem_cons.mp isPart with rfl | isPart
    · exact entered
    · rcases List.mem_cons.mp isPart with rfl | isPart
      · exact tested
      · obtain rfl := List.mem_singleton.mp isPart
        exact Entered.expression second.ready tested consequent
  | .expression (.arrow _ params _ { statements, .. }) =>
    obtain rfl := List.mem_singleton.mp isPart
    have front : (parameterEvents params state).filterMap binding? <+:
        bindings.drop frame.start := by
      refine List.IsPrefix.trans ?_ given
      change _ <+: (parameterEvents params state ++ _).filterMap binding?
      rw [List.filterMap_append]
      exact List.prefix_append _ _
    exact parameters_entered params ready.sound entered front
  | .statement (.constant _ _ _ initial _) | .statement (.returning _ (some initial) _) =>
    obtain rfl := List.mem_singleton.mp isPart
    exact entered
  | .statements (first :: rest) =>
    rcases List.mem_cons.mp isPart with rfl | isPart
    · exact entered
    · obtain rfl := List.mem_singleton.mp isPart
      have front : (statementEvents first state).filterMap binding? <+:
          bindings.drop frame.start := by
        refine List.IsPrefix.trans ?_ given
        change _ <+: (statementEvents first state ++ _).filterMap binding?
        rw [List.filterMap_append]
        exact List.prefix_append _ _
      have sites : (frame.behind first).sites =
          (first.sites frame.start).reverse ++ frame.sites := by
        rw [Frame.sites, Frame.sites, Frame.levels, Frame.levels, List.flatMap_cons,
          List.flatMap_cons, Frame.behind, List.reverse_append, List.append_assoc]
      have next := statement_entered first ready entered front
      rw [← sites] at next
      exact next

end Inferrer

/-! ## Places in a program -/

namespace Program

/-- The place at which the walk over a program begins. -/
def place (program : Program) : Place := ⟨program.start, ⟨0, [], []⟩⟩

/-- A place that is visited in the walk over a program, with the position of its first event. -/
structure Placed (program : Program) (place : Place) (index : Nat) : Prop where
  visits : Place.Visits program.place place
  ready : place.moment.Ready
  scoping : place.scoping <+: program.scoping.drop index
  events : place.events <+: program.inferenceEvents.drop index
  start_eq : place.frame.start = ((program.inferenceEvents.take index).filterMap binding?).length
  known : place.Known program.bindings

variable {program : Program} {place : Place} {index : Nat}

/-- The walk begins with the first event. -/
theorem placed_place (program : Program) : Placed program program.place 0 where
  visits := .refl
  ready := Inference.wellFormed_empty
  scoping := List.prefix_rfl
  events := List.prefix_rfl
  start_eq := rfl
  known := .nil

/-- The bindings at a place are among those of the program. -/
theorem Placed.bindings (placed : Placed program place index) :
    place.events.filterMap binding? <+: program.bindings.drop place.frame.start := by
  have split : program.bindings = (program.inferenceEvents.take index).filterMap binding? ++
      (program.inferenceEvents.drop index).filterMap binding? := by
    rw [← List.filterMap_append, List.take_append_drop]
    rfl
  rw [placed.start_eq, split, List.drop_left]
  exact placed.events.filterMap _

/-- The parts of a place are visited. -/
theorem Placed.part {part : Place} {ahead : Nat} (placed : Placed program place index)
    (isPart : part ∈ place.parts)
    (stands : Place.Part place.frame.start place.scoping place.events part ahead) :
    Placed program part (index + ahead) where
  visits := placed.visits.tail isPart
  ready := (within_of_mem_parts placed.ready (Place.moment_of_mem_parts isPart)).ready
  scoping := by
    rw [← List.drop_drop]
    exact stands.scoping.trans (placed.scoping.drop ahead)
  events := by
    rw [← List.drop_drop]
    exact stands.events.trans (placed.events.drop ahead)
  start_eq := by
    obtain ⟨rest, whole⟩ := placed.events
    rw [List.take_add, ← whole, List.take_append_of_le_length stands.inside, List.filterMap_append,
      List.length_append, ← placed.start_eq]
    exact stands.start_eq
  known := placed.known.part placed.ready placed.bindings isPart

/-- Every use at a place is visited, at its own place. -/
theorem Placed.exists_use {place : Place} {index within : Nat} {use : Identifier}
    {found : Option Site}
    (placed : Placed program place index) (here : place.scoping[within]? = some (.used use found)) :
    ∃ inner, Placed program inner (index + within) ∧
      inner.moment.subject = .expression (.identifier use) ∧
      found = lexicalSite inner.frame.levels use.name := by
  by_cases alone : ∃ other, place.moment.subject = .expression (.identifier other)
  · obtain ⟨other, subject⟩ := alone
    rw [Place.scoping, subject] at here
    change [ScopeEvent.used other _][within]? = _ at here
    obtain ⟨inside, event⟩ := List.getElem?_eq_some_iff.mp here
    obtain rfl : within = 0 := Nat.lt_one_iff.mp inside
    obtain ⟨rfl, rfl⟩ := ScopeEvent.used.inj event
    exact ⟨place, placed, subject, rfl⟩
  · have composed := not_exists.mp alone
    obtain ⟨part, isPart, ahead, further, rfl, stands, here⟩ :=
      (place.series composed).descend here
    have smaller := size_lt (Place.moment_of_mem_parts isPart)
    obtain ⟨inner, isPlaced, rest⟩ := (placed.part isPart stands).exists_use here
    rw [Nat.add_assoc] at isPlaced
    exact ⟨inner, isPlaced, rest⟩
  termination_by place.moment.size

end Program

/-! ## What a use is an instance of -/

namespace Inferrer

/-- A use of a name, at a moment at which the environment finds a type for it, is an instance of
this type. -/
def UsedAsInstance (state : Inference) (name : String) (type : Ty) : Prop :=
  ∃ image given store, (lookup name).run state = (image, { state with store }) ∧
    Solver.Instances state.store store state.undetermined [type] [image] given

/-- A name that is found is used as an instance of its type. -/
theorem usedAsInstance {state : Inference} {name : String} {type : Ty}
    (wellFormed : state.WellFormed) (found : state.environment.lookup name = some type) :
    UsedAsInstance state name type := by
  have covered := wellFormed.environment _ (mem_of_lookup found)
  obtain ⟨image, given, store, ran, instances⟩ :=
    Solver.freshInstance_instances wellFormed.sound wellFormed.undetermined covered
  refine ⟨image, given, store, ?_, instances⟩
  simp only [lookup_eq, found]
  change (solve (Solver.freshInstance state.undetermined type)).run state = _
  rw [run_solve, ran]

/-- Places that are visited are at moments that are visited. -/
theorem Place.Visits.moments {whole part : Place} (visits : Place.Visits whole part) :
    Moment.Visits whole.moment part.moment := by
  induction visits with
  | refl => exact .refl
  | tail _ isPart inductionHypothesis =>
    exact inductionHypothesis.tail (Place.moment_of_mem_parts isPart)

end Inferrer

/-- A use that is linked to a declaration is found by the inference under the type that is bound
at the last declaration of its name before it, in the same level. It is an instance of this
type, and if the last declaration is a parameter, it has the very type of the parameter. -/
theorem uses_latest (program : Program) :
    program.resolve.program.uses = program.lexicalEvents.filterMap Resolver.linked ∧
    ∀ (index : Nat) (use : Identifier) (link : Link),
      program.lexicalEvents[index]? = some (.used use (some link)) →
      ∃ place state site, Place.Visits program.place place ∧
        place.moment = ⟨.expression (.identifier use), state⟩ ∧
        lexicalSite place.frame.levels use.name = some site ∧ site.link program.number = link ∧
        ∃ level ∈ place.frame.levels, ∃ latest type,
          level.first? use.name = some site ∧ level.last? use.name = some latest ∧
          program.BindsAt latest type ∧
          program.inferenceEvents[index]? = some (.used use (some type)) ∧
          UsedAsInstance state use.name type ∧
          (latest.declarer.kind = .parameter →
            UsedAsBound ((inferStatements program.body).run {}).2.store state use.name type) := by
  obtain ⟨resolved, -, -, uses, -⟩ := program.resolve_lexical
  refine ⟨resolved ▸ uses, ?_⟩
  intro index use link linked
  rw [Program.lexicalEvents, List.getElem?_map, Option.map_eq_some_iff] at linked
  obtain ⟨event, here, isLink⟩ := linked
  match event, isLink with
  | .used _ (some site), rfl =>
    obtain ⟨⟨⟨subject, state⟩, frame⟩, placed, isUse, found⟩ := program.placed_place.exists_use here
    obtain rfl : subject = .expression (.identifier use) := isUse
    obtain ⟨level, around, latest, first, last, isLatest⟩ := latestSite_of_lexicalSite found.symm
    have newest : frame.sites.find? (·.declarer.name == use.name) = some latest := by
      rw [Frame.sites, List.find?_flatMap]
      exact isLatest
    obtain ⟨type, entry, bound, kept⟩ := Entered.lookup placed.known newest
    refine ⟨_, state, site, placed.visits, rfl, found.symm, rfl, level, around, latest, type, first,
      last, bound, ?_, usedAsInstance placed.ready entry, ?_⟩
    · rw [Nat.zero_add] at placed
      obtain ⟨rest, whole⟩ := placed.events
      have head := congrArg (·[0]?) whole
      change some (ScopeEvent.used use (state.environment.lookup use.name)) = _ at head
      rw [List.getElem?_drop, entry] at head
      exact head.symm
    · intro isParameter
      exact Program.usedAsBound placed.visits.moments entry (kept isParameter)

/-- The program `const x = 1; const x = 'a'; const y = x;`. -/
def repeatedConstant : Program where
  body :=
    [.constant 0 ⟨6, "x", none⟩ none (.number 10 (.int 1)),
      .constant 13 ⟨19, "x", none⟩ none (.string 23 "a"),
      .constant 28 ⟨34, "y", none⟩ none (.identifier ⟨38, "x", none⟩)]

/-- The first declaration of `x`, to which the use is linked. -/
def firstConstant : Link := { number := 0, name := "x", kind := .constant, offset := 0 }

/-- The second declaration of `x` is refused, but its type is the one that the use has. -/
theorem uses_latest_repeated :
    repeatedConstant.lexicalEvents[2]? = some (.used ⟨38, "x", none⟩ (some firstConstant)) ∧
      ∃ place state, Place.Visits repeatedConstant.place place ∧
        place.moment = ⟨.expression (.identifier ⟨38, "x", none⟩), state⟩ ∧
        UsedAsInstance state "x" (.primitive .string) := by
  have linked : repeatedConstant.lexicalEvents[2]? =
      some (.used ⟨38, "x", none⟩ (some firstConstant)) := rfl
  obtain ⟨place, state, site, visits, moment, -, -, level, -, latest, type, -, -, -, event, used,
    -⟩ := (uses_latest repeatedConstant).2 2 _ _ linked
  obtain rfl : Ty.primitive .string = type :=
    Option.some.inj (ScopeEvent.used.inj (Option.some.inj event)).2
  exact ⟨linked, place, state, visits, moment, used⟩

/-- The use is linked to a constant of type `Number`, and the other declaration is reported. But
the use is no instance of this type: the constant that it initializes has type `String`. -/
theorem uses_not_first :
    repeatedConstant.lexicalEvents[2]? = some (.used ⟨38, "x", none⟩ (some firstConstant)) ∧
      repeatedConstant.resolve.diagnostics = [⟨.duplicateDeclaration "x", 19⟩] ∧
      repeatedConstant.Binds firstConstant (.primitive .number) ∧
      (∃ state, Visits repeatedConstant.start
          ⟨.expression (.identifier ⟨38, "x", none⟩), state⟩ ∧
        ¬ UsedAsInstance state "x" (.primitive .number)) ∧
      (repeatedConstant.infer.1.body.map Statement.inferred).map (·.map Ty.text) =
        [some "Number", some "String", some "String"] := by
  have binds : repeatedConstant.Binds firstConstant (.primitive .number) :=
    ⟨0, _, rfl, rfl, fun other another same => repeatedConstant.link_unique rfl same⟩
  -- behind two statements, in the third one, at its initializer
  have visits : Visits repeatedConstant.start
      ⟨.expression (.identifier ⟨38, "x", none⟩),
        ((inferStatements (repeatedConstant.body.take 2)).run {}).2⟩ :=
    .head (List.mem_cons_of_mem _ List.mem_cons_self)
      (.head (List.mem_cons_of_mem _ List.mem_cons_self)
        (.head List.mem_cons_self (.head List.mem_cons_self .refl)))
  refine ⟨rfl, rfl, binds, ⟨_, visits, ?_⟩, by decide +kernel⟩
  rintro ⟨image, given, store, ran, instances⟩
  obtain rfl : Ty.primitive .string = image := congrArg Prod.fst ran
  have images := instances.images_eq
  rw [List.map_singleton, resolve_primitive] at images
  exact nomatch (List.singleton_inj.mp images)

end ArrowScript
