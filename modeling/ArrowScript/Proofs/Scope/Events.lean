import ArrowScript.Proofs.Scope.Propriety

/-!
# What the name resolution meets in a tree

A walk over a tree meets the nodes at which names are used and the nodes at which they are
declared, in the order of the source. The events of the name resolution list what it finds
out at these nodes, in the state in which it comes to them: the link of a use, if the name
is declared, and the link that a declaration is given, if the name is new in its scope.

The events account for all that the resolution does. Its problems are those of the events
without a link, the links of the uses stand in the tree that it returns, and the links of
the declarations are numbered in the order of the events.
-/

namespace ArrowScript

/-! ## Events -/

/-- A node that declares a name. A constant begins with its keyword, so its name stands at
another place. -/
structure Declarer where
  kind : DeclarationKind
  name : String
  offset : Int
  place : Int
  deriving DecidableEq, Repr

/-- The problem of a node that declares a name which its scope has already. -/
def Declarer.duplicate (declarer : Declarer) : Problem :=
  match declarer.kind with
  | .constant => .duplicateDeclaration declarer.name
  | .parameter => .duplicateParameter declarer.name

/-- The parameter as a node that declares its name. -/
def Parameter.declarer (param : Parameter) : Declarer :=
  ⟨.parameter, param.name, param.offset, param.offset⟩

/-- What a walk finds for a name where it is used, and what it gives it where it is
declared. -/
inductive ScopeEvent (Found Given : Type) where
  | used (use : Identifier) (found : Option Found)
  | declared (declarer : Declarer) (given : Given)
  deriving Repr

namespace Resolution

/-- The links of all declarations, in the order of declaring. -/
def links (resolution : Resolution) : List Link := resolution.declarations.toList.map (·.link)

/-- The link of the declaration that a name has at this place. -/
def linkOf (resolution : Resolution) (name : String) : Option Link :=
  ((resolution.names :: resolution.enclosing).findSome? (·.lookup name)).bind
    (resolution.links[·]?)

/-- The state at the beginning of a function. -/
def opened (resolution : Resolution) : Resolution :=
  { resolution with
    names := []
    enclosing := resolution.names :: resolution.enclosing
    children := [] }

end Resolution

namespace Resolver

/-- An event of the name resolution: a use with the declaration that it is linked to, or a
declaration with the link that it is given. -/
abbrev Event := ScopeEvent Link (Option Link)

/-- The problem that is reported at an event without a link. -/
def problem : Event → Option Diagnostic
  | .used use none => some ⟨.undeclaredReference use.name, use.offset⟩
  | .declared declarer none => some ⟨declarer.duplicate, declarer.place⟩
  | .used _ (some _) | .declared _ (some _) => none

/-- The use at an event, as it is left in the tree. -/
def linked : Event → Option Identifier
  | .used use none => some use
  | .used use (some link) => some { use with declaration := some link }
  | .declared _ _ => none

/-- The link that a declaration is given. -/
def made : Event → Option Link
  | .used _ _ => none
  | .declared _ link => link

/-- The events at the parameters of a function. -/
def parameterEvents : List Parameter → Resolution → List Event
  | [], _ => []
  | param :: rest, resolution =>
    .declared param.declarer ((declare param.name .parameter param.offset).run resolution).1 ::
      parameterEvents rest ((declareParameters [param]).run resolution).2

mutual

/-- The events in an expression. -/
def expressionEvents : Expression → Resolution → List Event
  | .number _ _, _ | .string _ _, _ | .boolean _ _, _ => []
  | .identifier use, resolution => [.used use (resolution.linkOf use.name)]
  | .array _ elements, resolution => expressionsEvents elements resolution
  | .member _ object index, resolution =>
    expressionEvents object resolution ++
      expressionEvents index ((resolveExpression object).run resolution).2
  | .binary _ left _ right, resolution =>
    expressionEvents left resolution ++
      expressionEvents right ((resolveExpression left).run resolution).2
  | .conditional _ test consequent alternate, resolution =>
    let first := ((resolveExpression test).run resolution).2
    let second := ((resolveExpression consequent).run first).2
    expressionEvents test resolution ++
      (expressionEvents consequent first ++ expressionEvents alternate second)
  | .arrow _ params _ { statements, .. }, resolution =>
    parameterEvents params resolution.opened ++
      statementsEvents statements ((declareParameters params).run resolution.opened).2
  | .call _ callee arguments, resolution =>
    expressionEvents callee resolution ++
      expressionsEvents arguments ((resolveExpression callee).run resolution).2

/-- The events in several expressions. -/
def expressionsEvents : List Expression → Resolution → List Event
  | [], _ => []
  | expression :: rest, resolution =>
    expressionEvents expression resolution ++
      expressionsEvents rest ((resolveExpression expression).run resolution).2

/-- The events in a statement. A constant is declared behind its initializer. -/
def statementEvents : Statement → Resolution → List Event
  | .constant offset id _ initial _, resolution =>
    let after := ((resolveExpression initial).run resolution).2
    expressionEvents initial resolution ++
      [.declared ⟨.constant, id.name, offset, id.offset⟩
        ((declare id.name .constant offset).run after).1]
  | .returning _ none _, _ => []
  | .returning _ (some argument) _, resolution => expressionEvents argument resolution

/-- The events in several statements. -/
def statementsEvents : List Statement → Resolution → List Event
  | [], _ => []
  | statement :: rest, resolution =>
    statementEvents statement resolution ++
      statementsEvents rest ((resolveStatement statement).run resolution).2

end

end Resolver

mutual

/-- The names that are used in an expression, in the order of the source. -/
def Expression.uses : Expression → List Identifier
  | .number _ _ | .string _ _ | .boolean _ _ => []
  | .identifier use => [use]
  | .array _ elements => Expression.usesOf elements
  | .member _ object index => object.uses ++ index.uses
  | .binary _ left _ right => left.uses ++ right.uses
  | .conditional _ test consequent alternate =>
    test.uses ++ (consequent.uses ++ alternate.uses)
  | .arrow _ _ _ { statements, .. } => Statement.usesOf statements
  | .call _ callee arguments => callee.uses ++ Expression.usesOf arguments

/-- The names that are used in several expressions. -/
def Expression.usesOf : List Expression → List Identifier
  | [] => []
  | expression :: rest => expression.uses ++ Expression.usesOf rest

/-- The names that are used in a statement. -/
def Statement.uses : Statement → List Identifier
  | .constant _ _ _ initial _ => initial.uses
  | .returning _ none _ => []
  | .returning _ (some argument) _ => argument.uses

/-- The names that are used in several statements. -/
def Statement.usesOf : List Statement → List Identifier
  | [] => []
  | statement :: rest => statement.uses ++ Statement.usesOf rest

end

/-- The use at an event, if it is one. -/
def ScopeEvent.use? {Found Given : Type} : ScopeEvent Found Given → Option Identifier
  | .used use _ => some use
  | .declared _ _ => none

/-! ## What the events account for -/

/-- The names in scope refer to declarations, and these are numbered. -/
structure Resolution.Consistent (resolution : Resolution) : Prop where
  visible : ∀ names ∈ resolution.names :: resolution.enclosing, ∀ entry ∈ names,
    entry.2 < resolution.links.length
  counted : resolution.links.map (·.number) = List.range resolution.links.length

/-- A name that is found has the number of a declaration. -/
theorem Resolution.Consistent.found_lt {resolution : Resolution}
    (consistent : resolution.Consistent) {name : String} {number : Nat}
    (found : (resolution.names :: resolution.enclosing).findSome? (·.lookup name) = some number) :
    number < resolution.links.length := by
  obtain ⟨names, isScope, here⟩ := List.exists_of_findSome?_eq_some found
  obtain ⟨_, _, rfl, -⟩ := List.lookup_eq_some_iff.mp here
  exact consistent.visible _ isScope (name, number) (by simp)

/-- At first there are neither names nor declarations. -/
theorem Resolution.consistent_empty : Consistent {} where
  visible := by simp
  counted := rfl

namespace Resolver

variable {before between after resolution : Resolution} {events more : List Event}
  {declared others : Names} {uses linkedUses furtherUses furtherLinked : List Identifier}

/-- What the events of a walk account for: the declarations, the problems, and the uses in
the tree before and behind the walk. Besides, names are added to the current scope. -/
structure Records (before after : Resolution) (events : List Event) (declared : Names)
    (uses linkedUses : List Identifier) : Prop where
  consistent : after.Consistent
  enclosing : after.enclosing = before.enclosing
  names : after.names = before.names ++ declared
  links : after.links = before.links ++ events.filterMap made
  diagnostics : after.diagnostics = before.diagnostics ++ events.filterMap problem
  uses : uses = events.filterMap ScopeEvent.use?
  linked : linkedUses = events.filterMap linked

namespace Records

/-- A walk that meets nothing. -/
theorem refl (consistent : resolution.Consistent) :
    Records resolution resolution [] [] [] [] where
  consistent
  enclosing := rfl
  names := (List.append_nil _).symm
  links := (List.append_nil _).symm
  diagnostics := (List.append_nil _).symm
  uses := rfl
  linked := rfl

/-- Two walks, one after the other. -/
theorem append (first : Records before between events declared uses linkedUses)
    (second : Records between after more others furtherUses furtherLinked) :
    Records before after (events ++ more) (declared ++ others) (uses ++ furtherUses)
      (linkedUses ++ furtherLinked) where
  consistent := second.consistent
  enclosing := second.enclosing.trans first.enclosing
  names := by rw [second.names, first.names, List.append_assoc]
  links := by rw [second.links, first.links, List.filterMap_append, List.append_assoc]
  diagnostics := by
    rw [second.diagnostics, first.diagnostics, List.filterMap_append, List.append_assoc]
  uses := by rw [first.uses, second.uses, List.filterMap_append]
  linked := by rw [first.linked, second.linked, List.filterMap_append]

/-- A walk that adds no name to the current scope keeps all links. -/
theorem linkOf_eq (records : Records before after events [] uses linkedUses)
    (consistent : before.Consistent) (name : String) :
    after.linkOf name = before.linkOf name := by
  rw [Resolution.linkOf, Resolution.linkOf, records.names, records.enclosing, List.append_nil]
  refine Option.bind_congr fun number found => ?_
  rw [records.links, List.getElem?_append_left (consistent.found_lt found)]

/-- A new name has the link that it is given, and all other names keep theirs. -/
theorem linkOf_declared {declarer : Declarer} {link : Link}
    (records : Records before after [.declared declarer (some link)]
      [(declarer.name, before.links.length)] uses linkedUses)
    (consistent : before.Consistent) (new : before.names.lookup declarer.name = none)
    (name : String) :
    after.linkOf name = if name = declarer.name then some link else before.linkOf name := by
  have links : after.links = before.links ++ [link] := records.links
  rw [Resolution.linkOf, records.names, records.enclosing, links]
  by_cases same : name = declarer.name
  · subst same
    simp [List.lookup_append, new]
  · have absent : [(declarer.name, before.links.length)].lookup name = none := by
      rw [List.lookup_cons, beq_eq_false_iff_ne.mpr same]
      rfl
    rw [if_neg same, List.findSome?_cons, List.lookup_append, absent, Option.or_none]
    change ((before.names :: before.enclosing).findSome? (·.lookup name)).bind _ = _
    refine Option.bind_congr fun number found => ?_
    rw [List.getElem?_append_left (consistent.found_lt found)]

end Records

/-- The link of a declaration is the link at its number. -/
theorem links_getElem? (resolution : Resolution) (number : Nat) :
    resolution.links[number]? = resolution.declarations[number]?.map (·.link) := by
  rw [Resolution.links, List.getElem?_map, Array.getElem?_toList]

/-- A use does not change the link of a declaration. -/
theorem links_refer (number : Nat) (offset : Int) (resolution : Resolution) :
    ((refer number offset).run resolution).2.links = resolution.links := by
  refine List.ext_getElem? fun place => ?_
  rw [links_getElem?, links_getElem?]
  change ((resolution.declarations.modify number _)[place]?).map _ = _
  rw [Array.getElem?_modify]
  split
  · rw [Option.map_map]
    rfl
  · rfl

/-- A use of a name is linked, or reported. -/
theorem resolveIdentifier_records (use : Identifier) (consistent : resolution.Consistent) :
    Records resolution ((resolveIdentifier use).run resolution).2
      [.used use (resolution.linkOf use.name)] [] [use]
      [((resolveIdentifier use).run resolution).1] := by
  rw [resolveIdentifier_eq]
  cases found : (resolution.names :: resolution.enclosing).findSome? (·.lookup use.name) with
  | none =>
    have without : resolution.linkOf use.name = none := by rw [Resolution.linkOf, found]; rfl
    rw [without]
    exact
      { consistent := ⟨consistent.visible, consistent.counted⟩
        enclosing := rfl
        names := (List.append_nil _).symm
        links := (List.append_nil _).symm
        diagnostics := rfl
        uses := rfl
        linked := rfl }
  | some number =>
    have same := links_refer number use.offset resolution
    have inScope := consistent.found_lt found
    have link : resolution.linkOf use.name = some resolution.links[number] := by
      rw [Resolution.linkOf, found, Option.bind_some, List.getElem?_eq_getElem inScope]
    have there : ((refer number use.offset).run resolution).2.declarations[number]?.map (·.link) =
        some resolution.links[number] := by
      rw [← links_getElem?, same, List.getElem?_eq_getElem inScope]
    obtain ⟨declaration, isThere, isLink⟩ := Option.map_eq_some_iff.mp there
    simp only [isThere, isLink, link]
    exact
      { consistent := ⟨same ▸ consistent.visible, same ▸ consistent.counted⟩
        enclosing := rfl
        names := (List.append_nil _).symm
        links := same.trans (List.append_nil _).symm
        diagnostics := (List.append_nil _).symm
        uses := rfl
        linked := rfl }

/-! ## Declarations -/

/-- A name that the scope has already is not declared. -/
theorem declare_taken {name : String} (taken : (resolution.names.lookup name).isSome)
    (kind : DeclarationKind) (offset : Int) :
    (declare name kind offset).run resolution = (none, resolution) := by
  rw [declare_eq, if_pos taken]

/-- A name that is new in its scope is given the next number. -/
theorem declare_new (consistent : resolution.Consistent) (declarer : Declarer)
    (new : resolution.names.lookup declarer.name = none) :
    ∃ link after,
      (declare declarer.name declarer.kind declarer.offset).run resolution = (some link, after) ∧
      Records resolution after [.declared declarer (some link)]
        [(declarer.name, resolution.links.length)] [] [] := by
  let link : Link :=
    { number := resolution.declarations.size
      name := declarer.name
      kind := declarer.kind
      offset := declarer.offset }
  let after : Resolution :=
    { resolution with
      names := resolution.names ++ [(declarer.name, link.number)]
      declarations := resolution.declarations.push { link } }
  have number : resolution.links.length = link.number := by
    rw [Resolution.links, List.length_map, Array.length_toList]
  have links : after.links = resolution.links ++ [link] := by
    simp only [Resolution.links, after, Array.toList_push, List.map_append, List.map_cons,
      List.map_nil]
  have consistent : after.Consistent :=
    { visible := by
        intro names isScope entry isEntry
        rw [links, List.length_append, List.length_singleton]
        rcases List.mem_cons.mp isScope with rfl | isOuter
        · rcases List.mem_append.mp isEntry with older | isNew
          · exact Nat.lt_succ_of_lt (consistent.visible _ List.mem_cons_self entry older)
          · rw [List.mem_singleton.mp isNew, number]
            exact Nat.lt_succ_self _
        · exact Nat.lt_succ_of_lt
            (consistent.visible names (List.mem_cons_of_mem _ isOuter) entry isEntry)
      counted := by
        rw [links, List.map_append, consistent.counted, List.length_append,
          List.length_singleton, List.range_succ, number]
        rfl }
  refine ⟨link, after, ?_, ?_⟩
  · rw [declare_eq, new]
    rfl
  · exact
      { consistent
        enclosing := rfl
        names := by rw [number]
        links := links
        diagnostics := (List.append_nil _).symm
        uses := rfl
        linked := rfl }

/-- What happens at a declaration: its name is found from then on, under the link that it
was given if it was given one, and all other names are found as before. -/
structure Declares (before after : Resolution) (declarer : Declarer) (given : Option Link) :
    Prop where
  records : ∃ declared, Records before after [.declared declarer given] declared [] []
  kept : ∀ name ≠ declarer.name, after.linkOf name = before.linkOf name
  found : ∃ known, after.linkOf declarer.name = some known ∧
    ∀ link, given = some link → known = link

/-- A name that the scope has already is reported where it is declared again. -/
theorem declares_taken (consistent : resolution.Consistent) (declarer : Declarer)
    (taken : (resolution.names.lookup declarer.name).isSome) :
    Declares resolution ((report declarer.duplicate declarer.place).run resolution).2 declarer
      none where
  records := ⟨[],
    { consistent := ⟨consistent.visible, consistent.counted⟩
      enclosing := rfl
      names := (List.append_nil _).symm
      links := (List.append_nil _).symm
      diagnostics := rfl
      uses := rfl
      linked := rfl }⟩
  kept _ _ := rfl
  found := by
    obtain ⟨number, here⟩ := Option.isSome_iff_exists.mp taken
    have found : (resolution.names :: resolution.enclosing).findSome?
        (·.lookup declarer.name) = some number := by rw [List.findSome?_cons, here]
    have bound : number < resolution.links.length := consistent.found_lt found
    refine ⟨resolution.links[number], ?_, fun _ none => nomatch none⟩
    change resolution.linkOf declarer.name = _
    rw [Resolution.linkOf, found, Option.bind_some, List.getElem?_eq_getElem]

/-- A name that is new in its scope is found under its link from then on. -/
theorem declares_new {declarer : Declarer} {link : Link} (consistent : resolution.Consistent)
    (new : resolution.names.lookup declarer.name = none)
    (records : Records resolution after [.declared declarer (some link)]
      [(declarer.name, resolution.links.length)] [] []) :
    Declares resolution after declarer (some link) where
  records := ⟨_, records⟩
  kept name other := by rw [records.linkOf_declared consistent new, if_neg other]
  found := by
    refine ⟨link, ?_, fun other same => Option.some.inj same⟩
    rw [records.linkOf_declared consistent new, if_pos rfl]

/-- The first of several parameters is declared before the others. -/
theorem declareParameters_declares (param : Parameter) (consistent : resolution.Consistent) :
    ∃ between, Declares resolution between param.declarer
        ((declare param.name .parameter param.offset).run resolution).1 ∧
      ∀ rest, ((declareParameters (param :: rest)).run resolution).2 =
        ((declareParameters rest).run between).2 := by
  cases found : resolution.names.lookup param.name with
  | some number =>
    have taken : (resolution.names.lookup param.name).isSome := by rw [found]; rfl
    have ran := declare_taken taken .parameter param.offset
    refine ⟨_, by rw [ran]; exact declares_taken consistent param.declarer taken, fun rest => ?_⟩
    rw [declareParameters_duplicate rest ran]
    rfl
  | none =>
    obtain ⟨link, between, ran, records⟩ := declare_new consistent param.declarer found
    change (declare param.name .parameter param.offset).run resolution = _ at ran
    refine ⟨between, by rw [ran]; exact declares_new consistent found records, fun rest => ?_⟩
    rw [declareParameters_new rest ran]

/-- A constant is declared behind its initializer. -/
theorem resolveStatement_declares (offset : Int) (id : Identifier)
    (ascription : Option Ascription) (initial : Expression) (inferred : Option Ty)
    {value : Expression} (ran : (resolveExpression initial).run resolution = (value, between))
    (consistent : between.Consistent) :
    ∃ linked after,
      (resolveStatement (.constant offset id ascription initial inferred)).run resolution =
        (linked, after) ∧
      linked.uses = value.uses ∧
      Declares between after ⟨.constant, id.name, offset, id.offset⟩
        ((declare id.name .constant offset).run between).1 := by
  let declarer : Declarer := ⟨.constant, id.name, offset, id.offset⟩
  obtain rfl : ((resolveExpression initial).run resolution).2 = between := by rw [ran]
  obtain rfl : ((resolveExpression initial).run resolution).1 = value := by rw [ran]
  cases found : ((resolveExpression initial).run resolution).2.names.lookup id.name with
  | some number =>
    have taken : (((resolveExpression initial).run resolution).2.names.lookup id.name).isSome :=
      by rw [found]; rfl
    have none := declare_taken taken .constant offset
    exact ⟨_, _, resolveStatement_duplicate offset id ascription initial inferred none, rfl,
      by rw [none]; exact declares_taken consistent declarer taken⟩
  | none =>
    obtain ⟨link, after, made, records⟩ := declare_new consistent declarer found
    change (declare id.name .constant offset).run _ = _ at made
    exact ⟨_, _, resolveStatement_new offset id ascription initial inferred made, rfl,
      by rw [made]; exact declares_new consistent found records⟩

/-! ## Walks over trees -/

/-- The names of parameters are declared or reported. -/
theorem declareParameters_records (params : List Parameter) (consistent : resolution.Consistent) :
    ∃ declared, Records resolution ((declareParameters params).run resolution).2
      (parameterEvents params resolution) declared [] [] := by
  induction params generalizing resolution with
  | nil => exact ⟨[], .refl consistent⟩
  | cons param rest inductionHypothesis =>
    obtain ⟨between, ⟨⟨declared, first⟩, -, -⟩, next⟩ :=
      declareParameters_declares param consistent
    obtain ⟨more, others⟩ := inductionHypothesis first.consistent
    rw [parameterEvents, next rest, next []]
    exact ⟨_, first.append others⟩

/-- The state at the beginning of a function refers to the same declarations. -/
theorem consistent_opened (consistent : resolution.Consistent) :
    resolution.opened.Consistent where
  visible := by
    intro names isScope entry isEntry
    rcases List.mem_cons.mp isScope with rfl | isOuter
    · exact absurd isEntry List.not_mem_nil
    · exact consistent.visible names isOuter entry isEntry
  counted := consistent.counted

/-- Behind a function the scopes around it are left as they were. -/
theorem Records.closed (records : Records resolution.opened after events declared uses linkedUses)
    (children : List Scope) :
    Records resolution
      { after with names := resolution.names, enclosing := resolution.enclosing, children }
      events [] uses linkedUses where
  consistent :=
    { visible := by
        intro names isScope entry isEntry
        refine records.consistent.visible names (List.mem_cons_of_mem _ ?_) entry isEntry
        rw [records.enclosing]
        exact isScope
      counted := records.consistent.counted }
  enclosing := rfl
  names := (List.append_nil _).symm
  links := records.links
  diagnostics := records.diagnostics
  uses := records.uses
  linked := records.linked

mutual

/-- The events in an expression account for the walk over it. -/
theorem resolveExpression_records (expression : Expression) (resolution : Resolution)
    (consistent : resolution.Consistent) :
    Records resolution ((resolveExpression expression).run resolution).2
      (expressionEvents expression resolution) [] expression.uses
      ((resolveExpression expression).run resolution).1.uses := by
  match expression with
  | .number _ _ | .string _ _ | .boolean _ _ => exact .refl consistent
  | .identifier use => exact resolveIdentifier_records use consistent
  | .array offset elements => exact resolveExpressions_records elements resolution consistent
  | .member offset object index =>
    have first := resolveExpression_records object resolution consistent
    exact first.append (resolveExpression_records index _ first.consistent)
  | .binary offset left operator right =>
    have first := resolveExpression_records left resolution consistent
    exact first.append (resolveExpression_records right _ first.consistent)
  | .conditional offset test consequent alternate =>
    have first := resolveExpression_records test resolution consistent
    have second := resolveExpression_records consequent _ first.consistent
    exact first.append (second.append (resolveExpression_records alternate _ second.consistent))
  | .arrow offset params result { offset := opening, statements } =>
    obtain ⟨declared, entered⟩ := declareParameters_records params (consistent_opened consistent)
    obtain ⟨more, body⟩ := resolveStatements_records statements _ entered.consistent
    exact (entered.append body).closed _
  | .call offset callee arguments =>
    have first := resolveExpression_records callee resolution consistent
    exact first.append (resolveExpressions_records arguments _ first.consistent)

/-- The events in several expressions account for the walk over them. -/
theorem resolveExpressions_records (expressions : List Expression) (resolution : Resolution)
    (consistent : resolution.Consistent) :
    Records resolution ((resolveExpressions expressions).run resolution).2
      (expressionsEvents expressions resolution) [] (Expression.usesOf expressions)
      (Expression.usesOf ((resolveExpressions expressions).run resolution).1) := by
  match expressions with
  | [] => exact .refl consistent
  | expression :: rest =>
    have first := resolveExpression_records expression resolution consistent
    exact first.append (resolveExpressions_records rest _ first.consistent)

/-- The events in a statement account for the walk over it. -/
theorem resolveStatement_records (statement : Statement) (resolution : Resolution)
    (consistent : resolution.Consistent) :
    ∃ declared, Records resolution ((resolveStatement statement).run resolution).2
      (statementEvents statement resolution) declared statement.uses
      ((resolveStatement statement).run resolution).1.uses := by
  match statement with
  | .constant offset id ascription initial inferred =>
    have value := resolveExpression_records initial resolution consistent
    rcases valueRan : (resolveExpression initial).run resolution with ⟨tree, between⟩
    rw [valueRan] at value
    obtain ⟨linked, after, ran, same, ⟨declared, records⟩, -, -⟩ :=
      resolveStatement_declares offset id ascription initial inferred valueRan value.consistent
    have whole := value.append records
    simp only [List.append_nil] at whole
    rw [statementEvents, valueRan, ran, same]
    exact ⟨_, whole⟩
  | .returning offset none inferred => exact ⟨[], .refl consistent⟩
  | .returning offset (some argument) inferred =>
    exact ⟨[], resolveExpression_records argument resolution consistent⟩

/-- The events in several statements account for the walk over them. -/
theorem resolveStatements_records (statements : List Statement) (resolution : Resolution)
    (consistent : resolution.Consistent) :
    ∃ declared, Records resolution ((resolveStatements statements).run resolution).2
      (statementsEvents statements resolution) declared (Statement.usesOf statements)
      (Statement.usesOf ((resolveStatements statements).run resolution).1) := by
  match statements with
  | [] => exact ⟨[], .refl consistent⟩
  | statement :: rest =>
    obtain ⟨declared, first⟩ := resolveStatement_records statement resolution consistent
    obtain ⟨more, others⟩ := resolveStatements_records rest _ first.consistent
    exact ⟨_, first.append others⟩

end

end Resolver

namespace Program

/-- The names that are used in a program, in the order of the source. -/
def uses (program : Program) : List Identifier := Statement.usesOf program.body

/-- The events at which the name resolution uses and declares names. -/
def resolutionEvents (program : Program) : List Resolver.Event :=
  Resolver.statementsEvents program.body {}

/-- The events of a program account for all problems of its resolution, and for the links of
all uses. -/
theorem resolve_records (program : Program) :
    program.resolve.diagnostics = program.resolutionEvents.filterMap Resolver.problem ∧
      program.uses = program.resolutionEvents.filterMap ScopeEvent.use? ∧
      program.resolve.program.uses = program.resolutionEvents.filterMap Resolver.linked := by
  obtain ⟨declared, records⟩ :=
    Resolver.resolveStatements_records program.body {} Resolution.consistent_empty
  exact ⟨records.diagnostics, records.uses, records.linked⟩

/-- No two declarations are given the same link. -/
theorem link_unique (program : Program) {place other : Nat} {declarer another : Declarer}
    {link : Link} (here : program.resolutionEvents[place]? = some (.declared declarer (some link)))
    (there : program.resolutionEvents[other]? = some (.declared another (some link))) :
    other = place := by
  obtain ⟨declared, records⟩ :=
    Resolver.resolveStatements_records program.body {} Resolution.consistent_empty
  have numbers : (((Resolver.resolveStatements program.body).run {}).2.links.map
      (·.number)).Nodup := by
    rw [records.consistent.counted]
    exact List.nodup_range
  rw [records.links] at numbers
  have links : (program.resolutionEvents.filterMap Resolver.made).Nodup :=
    List.Pairwise.of_map (·.number) (fun _ _ apart same => apart (congrArg _ same)) numbers
  rw [List.Nodup, List.pairwise_filterMap, List.pairwise_iff_getElem] at links
  have apart {first second : Nat} {one two : Declarer} (before : first < second)
      (isFirst : program.resolutionEvents[first]? = some (.declared one (some link)))
      (isSecond : program.resolutionEvents[second]? = some (.declared two (some link))) :
      False := by
    obtain ⟨inFirst, isOne⟩ := List.getElem?_eq_some_iff.mp isFirst
    obtain ⟨inSecond, isTwo⟩ := List.getElem?_eq_some_iff.mp isSecond
    exact links first second inFirst inSecond before link (by rw [isOne]; rfl) link
      (by rw [isTwo]; rfl) rfl
  rcases Nat.lt_trichotomy other place with before | same | behind
  · exact (apart before there here).elim
  · exact same
  · exact (apart behind here there).elim

end Program

end ArrowScript
