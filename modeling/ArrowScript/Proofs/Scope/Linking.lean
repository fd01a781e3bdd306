import ArrowScript.Proofs.Scope.Sites

/-!
# The walk of the name resolution

The name resolution visits a tree with scopes that it opens, fills and closes, and with a
table of declarations. At each place its state can be told from the levels around the place
and the events before it: a scope has the firsts of its level, the table has the accepted
declaring nodes with the uses that refer to them, and the diagnostics are the problems of
the events.

`Meets` says of a walk that it takes such a state to the one behind some more events. Each
step of the resolution does, and so does every combination of walks, so the whole
resolution is the lexical scoping of its program.
-/

namespace ArrowScript

open ScopeEvent (accepted)

namespace Resolver

/-! ## States -/

/-- The use at an event, if it refers to the declaring node. -/
def refersTo (site : Site) : LexicalEvent → Option Identifier
  | .used use found => if found = some site then some use else none
  | .declared _ _ => none

section States

variable (number : Site → Nat)

/-- A declaration with its uses among some events. -/
def declaration (events : List LexicalEvent) (site : Site) : Declaration where
  link := site.link number
  references := (events.filterMap (refersTo site)).map (·.offset)

/-- The declarations that are made at some events. -/
def table (events : List LexicalEvent) : List Declaration :=
  (events.filterMap accepted).map (declaration number events)

/-- The state behind some events, with the levels around the place and the scopes that have
been closed in the innermost one. -/
def reached (events : List LexicalEvent) (level : Level) (outer : List Level)
    (children : List Scope) : Resolution where
  names := Level.names number level
  enclosing := outer.map (Level.names number)
  children
  declarations := (table number events).toArray
  diagnostics := (events.map (ScopeEvent.link number)).filterMap problem

end States

/-- What names refer to has been declared before. -/
structure Grounded (events : List LexicalEvent) (levels : List Level) : Prop where
  visible : ∀ level ∈ levels, ∀ site ∈ Level.firsts level, site ∈ events.filterMap accepted
  used : ∀ use site, .used use (some site) ∈ events → site ∈ events.filterMap accepted

variable {number : Site → Nat} {events : List LexicalEvent} {level : Level} {outer : List Level}
  {site : Site}

/-- The number of a name in a scope. -/
theorem lookup_names (level : Level) (name : String) :
    (Level.names number level).lookup name = (level.first? name).map number := by
  rw [← Level.first?_firsts, Level.names, Level.first?]
  induction Level.firsts level with
  | nil => rfl
  | cons site rest inductionHypothesis =>
    rw [List.map_cons, List.lookup_cons, List.find?_cons, Bool.beq_comm, inductionHypothesis]
    cases site.declarer.name == name <;> rfl

/-- The number of a name in the scopes around a place. -/
theorem found_eq (levels : List Level) (name : String) :
    (levels.map (Level.names number)).findSome? (·.lookup name) =
      (lexicalSite levels name).map number := by
  have lookups : (fun names : Names => names.lookup name) ∘ Level.names number =
      Option.map number ∘ (Level.first? · name) := funext fun level => lookup_names level name
  rw [List.findSome?_map, lookups, lexicalSite, List.map_findSome?]

/-- A scope has another name behind a declaring node that is accepted. -/
theorem names_concat (level : Level) (site : Site) :
    Level.names number (level ++ [site]) = Level.names number level ++
      (level.accept site).toList.map fun site => (site.declarer.name, number site) := by
  rw [Level.names, Level.firsts_concat, List.map_append]
  rfl

/-- The problem of one more event. -/
theorem problems_concat (events : List LexicalEvent) (event : LexicalEvent) :
    ((events ++ [event]).map (ScopeEvent.link number)).filterMap problem =
      (events.map (ScopeEvent.link number)).filterMap problem ++
        (problem (event.link number)).toList := by
  rw [List.map_append, List.filterMap_append, List.map_singleton, List.filterMap_cons]
  cases problem (event.link number) <;> rfl

/-! ## The table -/

/-- A use declares nothing. -/
theorem accepted_used (events : List LexicalEvent) (use : Identifier) (found : Option Site) :
    (events ++ [ScopeEvent.used use found]).filterMap accepted = events.filterMap accepted := by
  rw [List.filterMap_append]
  exact List.append_nil _

/-- A declaring node may be accepted. -/
theorem accepted_declared (events : List LexicalEvent) (declarer : Declarer)
    (given : Option Site) :
    (events ++ [ScopeEvent.declared declarer given]).filterMap accepted =
      events.filterMap accepted ++ given.toList := by
  rw [List.filterMap_append]
  cases given <;> rfl

/-- A use among further ones. -/
theorem declaration_used (use : Identifier) (found : Option Site) (other : Site) :
    declaration number (events ++ [.used use found]) other =
      if found = some other then
        { declaration number events other with
          references := (declaration number events other).references ++ [use.offset] }
      else declaration number events other := by
  rw [declaration, List.filterMap_append, List.map_append]
  split
  · next same => rw [List.filterMap_cons, refersTo, if_pos same]; rfl
  · next apart => rw [List.filterMap_cons, refersTo, if_neg apart, List.filterMap_nil, List.map_nil,
      List.append_nil]; rfl

/-- A use without a declaration changes no entry. -/
theorem table_used_none (use : Identifier) :
    table number (events ++ [.used use none]) = table number events := by
  rw [table, accepted_used]
  exact congrArg (List.map · _) (funext fun other => declaration_used use none other)

/-- A use of a declaration is added to its entry. -/
theorem table_used (numbered : Numbered number events)
    (known : site ∈ events.filterMap accepted) (use : Identifier) :
    (table number events).toArray.modify (number site) (fun declaration =>
        { declaration with references := declaration.references ++ [use.offset] }) =
      (table number (events ++ [.used use (some site)])).toArray := by
  refine Array.ext_getElem? fun place => ?_
  rw [Array.getElem?_modify, List.getElem?_toArray, List.getElem?_toArray, table, table,
    accepted_used, List.getElem?_map, List.getElem?_map]
  cases here : (events.filterMap accepted)[place]? with
  | none => split <;> rfl
  | some other =>
    have otherNumber := numbered.at_place here
    simp only [Option.map_some, declaration_used]
    by_cases same : number site = place
    · obtain ⟨position, there⟩ := List.getElem?_of_mem known
      obtain rfl : position = place := (numbered.at_place there).symm.trans same
      obtain rfl : site = other := Option.some.inj (there.symm.trans here)
      rw [if_pos same, if_pos rfl]
    · have apart : some site ≠ some other := fun equal =>
        same ((congrArg number (Option.some.inj equal)).trans otherNumber)
      rw [if_neg same, if_neg apart]

/-- A declaring node is no use of any other. -/
theorem declaration_declared (declarer : Declarer) (given : Option Site) :
    declaration number (events ++ [.declared declarer given]) = declaration number events := by
  funext other
  rw [declaration, List.filterMap_append]
  exact congrArg (fun uses => Declaration.mk _ (List.map _ uses)) (List.append_nil _)

/-- A declaring node that is not accepted changes no entry. -/
theorem table_declared_none (declarer : Declarer) :
    table number (events ++ [.declared declarer none]) = table number events := by
  rw [table, accepted_declared, declaration_declared]
  exact congrArg (List.map _) (List.append_nil _)

/-- A declaring node that is accepted has its number from the size of the table, and no use
refers to it so far. -/
theorem fresh_of_numbered {declarer : Declarer}
    (numbered : Numbered number (events ++ [.declared declarer (some site)])) :
    number site = (events.filterMap accepted).length ∧ site ∉ events.filterMap accepted := by
  have last : number site = (events.filterMap accepted).length :=
    numbered.at_place (by rw [accepted_declared]; exact List.getElem?_concat_length)
  refine ⟨last, fun known => ?_⟩
  obtain ⟨place, there⟩ := List.getElem?_of_mem known
  have inside := (List.getElem?_eq_some_iff.mp there).1
  have earlier := numbered.front.at_place there
  omega

/-- A declaring node that is accepted has an entry without uses. -/
theorem table_declared_some {declarer : Declarer} {levels : List Level}
    (numbered : Numbered number (events ++ [.declared declarer (some site)]))
    (grounded : Grounded events levels) :
    table number (events ++ [.declared declarer (some site)]) =
      table number events ++ [{ link := site.link number }] := by
  have unused : events.filterMap (refersTo site) = [] := by
    refine List.filterMap_eq_nil_iff.mpr fun event among => ?_
    cases event with
    | declared _ _ => rfl
    | used use found =>
      refine if_neg fun same => ?_
      subst same
      exact (fresh_of_numbered numbered).2 (grounded.used use site among)
  rw [table, declaration_declared, accepted_declared, List.map_append]
  refine congrArg (table number events ++ [·]) ?_
  rw [declaration, unused]
  rfl

/-! ## Grounded events -/

namespace Grounded

/-- A use of a name refers to what has been declared before. -/
theorem use (grounded : Grounded events (level :: outer)) (use : Identifier) :
    Grounded (events ++ [.used use (lexicalSite (level :: outer) use.name)]) (level :: outer) := by
  refine ⟨by rw [accepted_used]; exact grounded.visible, fun another site among => ?_⟩
  rw [accepted_used]
  rcases List.mem_append.mp among with earlier | last
  · exact grounded.used another site earlier
  · obtain ⟨-, same⟩ := ScopeEvent.used.inj (List.mem_singleton.mp last)
    obtain ⟨around, isLevel, first⟩ := mem_firsts_of_lexicalSite same.symm
    exact grounded.visible around isLevel site first

/-- A declaring node is in its level from then on. -/
theorem declare (grounded : Grounded events (level :: outer)) (site : Site) :
    Grounded (events ++ [site.declared level]) ((level ++ [site]) :: outer) := by
  rw [Site.declared]
  constructor
  · intro around isLevel first isFirst
    rw [accepted_declared]
    rcases List.mem_cons.mp isLevel with rfl | isOuter
    · rw [Level.firsts_concat] at isFirst
      rcases List.mem_append.mp isFirst with older | new
      · exact List.mem_append_left _ (grounded.visible level List.mem_cons_self first older)
      · exact List.mem_append_right _ new
    · exact List.mem_append_left _
        (grounded.visible around (List.mem_cons_of_mem _ isOuter) first isFirst)
  · intro use first among
    rw [accepted_declared]
    rcases List.mem_append.mp among with earlier | last
    · exact List.mem_append_left _ (grounded.used use first earlier)
    · cases List.mem_singleton.mp last

end Grounded

/-! ## Single steps -/

variable {children : List Scope}

/-- The state behind a declaring node that is accepted. -/
theorem declare_accepted (numbered : Numbered number (events ++ [site.declared level]))
    (grounded : Grounded events (level :: outer)) (new : level.accept site = some site) :
    (declare site.declarer.name site.declarer.kind site.declarer.offset).run
        (reached number events level outer children) =
      (some (site.link number),
        reached number (events ++ [site.declared level]) (level ++ [site]) outer children) := by
  have unknown : (Level.names number level).lookup site.declarer.name = none := by
    rw [lookup_names, (Level.accept_eq_some.mp new).1]
    rfl
  rw [Site.declared, new] at numbered ⊢
  have next := (fresh_of_numbered numbered).1
  have size : (table number events).toArray.size = number site := by
    rw [List.size_toArray, table, List.length_map, next]
  have names := @names_concat number level site
  have declarations := table_declared_some numbered grounded
  rw [new] at names
  rw [declare_eq, if_neg (by rw [reached, unknown]; exact Bool.false_ne_true)]
  simp only [reached, size, names, declarations, problems_concat, List.push_toArray]
  exact congrArg (fun diagnostics => (some _, Resolution.mk _ _ _ _ diagnostics))
    (List.append_nil _).symm

/-- The state behind a declaring node that is not accepted. -/
theorem declare_refused (taken : level.accept site = none) :
    (declare site.declarer.name site.declarer.kind site.declarer.offset).run
        (reached number events level outer children) =
      (none, reached number events level outer children) ∧
    ((report site.declarer.duplicate site.declarer.place).run
        (reached number events level outer children)).2 =
      reached number (events ++ [site.declared level]) (level ++ [site]) outer children := by
  have known : ((Level.names number level).lookup site.declarer.name).isSome := by
    rw [lookup_names, Option.isSome_map]
    exact Level.accept_eq_none.mp taken
  have names := @names_concat number level site
  rw [taken] at names
  refine ⟨declare_taken known _ _, ?_⟩
  rw [Site.declared, taken, reached, reached, table_declared_none, names, problems_concat]
  exact congrArg (Resolution.mk · _ _ _ _) (List.append_nil _).symm

/-- The state behind a use of a name. -/
theorem resolveIdentifier_reached (use : Identifier) (numbered : Numbered number events)
    (grounded : Grounded events (level :: outer)) :
    (resolveIdentifier use).run (reached number events level outer children) =
      (use.linkedTo ((lexicalSite (level :: outer) use.name).map (Site.link number)),
        reached number (events ++ [.used use (lexicalSite (level :: outer) use.name)]) level outer
          children) := by
  have searched : ((reached number events level outer children).names ::
      (reached number events level outer children).enclosing).findSome? (·.lookup use.name) =
        (lexicalSite (level :: outer) use.name).map number :=
    found_eq (level :: outer) use.name
  rw [resolveIdentifier_eq, searched]
  cases found : lexicalSite (level :: outer) use.name with
  | none =>
    rw [reached, reached, table_used_none, problems_concat]
    rfl
  | some site =>
    obtain ⟨around, isLevel, first⟩ := mem_firsts_of_lexicalSite found
    have known := grounded.visible around isLevel site first
    obtain ⟨place, here⟩ := List.getElem?_of_mem known
    have referred : ((refer (number site) use.offset).run
        (reached number events level outer children)).2 =
          reached number (events ++ [.used use (some site)]) level outer children := by
      change Resolution.mk _ _ _ ((table number events).toArray.modify (number site)
        fun declaration =>
          { declaration with references := declaration.references ++ [use.offset] }) _ = _
      rw [table_used numbered known use, reached, reached, problems_concat]
      exact congrArg (Resolution.mk _ _ _ _) (List.append_nil _).symm
    have entry : (reached number (events ++ [.used use (some site)]) level outer
        children).declarations[number site]? =
          some (declaration number (events ++ [.used use (some site)]) site) := by
      change (table number _).toArray[number site]? = _
      rw [List.getElem?_toArray, table, accepted_used, List.getElem?_map,
        numbered.at_place here, here]
      rfl
    simp only [Option.map_some, referred, entry]
    rfl

/-- The walk in a scope of its own. -/
theorem inNewScope_eq {α : Type} (owner : NodeKind) (walk : Resolver α)
    (resolution : Resolution) :
    (inNewScope owner walk).run resolution =
      let inner := walk.run resolution.opened
      let closed : Scope :=
        { owner := some owner, names := inner.2.names, children := inner.2.children }
      (inner.1,
        { inner.2 with
          names := resolution.names
          enclosing := resolution.enclosing
          children := resolution.children ++ [closed] }) := rfl

/-! ## Walks -/

/-- A walk through a level meets some events. It takes every state in front of them to the
state behind them, and it closes some scopes. -/
def Meets {α : Type} (number : Site → Nat) (level final : Level) (outer : List Level)
    (walk : Resolver α) (result : α) (events : List LexicalEvent) (scopes : List Scope) : Prop :=
  ∀ before children, Numbered number (before ++ events) → Grounded before (level :: outer) →
    walk.run (reached number before level outer children) =
        (result, reached number (before ++ events) final outer (children ++ scopes)) ∧
      Grounded (before ++ events) (final :: outer)

namespace Meets

variable {α β : Type} {between final : Level} {walk : Resolver α} {next : α → Resolver β}
  {result : α} {last : β} {others : List LexicalEvent} {scopes more : List Scope}

/-- A walk that does nothing. -/
theorem pure (result : α) : Meets number level level outer (pure result) result [] [] := by
  intro before children _ grounded
  rw [List.append_nil, List.append_nil]
  exact ⟨rfl, grounded⟩

/-- Two walks, one after the other. -/
theorem bind (first : Meets number level between outer walk result events scopes)
    (second : Meets number between final outer (next result) last others more) :
    Meets number level final outer (walk >>= next) last (events ++ others) (scopes ++ more) := by
  intro before children numbered grounded
  rw [← List.append_assoc] at numbered ⊢
  obtain ⟨firstRan, firstGrounded⟩ := first before children numbered.front grounded
  obtain ⟨secondRan, secondGrounded⟩ :=
    second (before ++ events) (children ++ scopes) numbered firstGrounded
  rw [run_bind, firstRan, secondRan, List.append_assoc children]
  exact ⟨rfl, secondGrounded⟩

/-- A walk whose result is put into a larger one. -/
theorem map (meets : Meets number level final outer walk result events scopes) (build : α → β) :
    Meets number level final outer (do return build (← walk)) (build result) events scopes := by
  intro before children numbered grounded
  obtain ⟨ran, after⟩ := meets before children numbered grounded
  rw [run_bind, ran]
  exact ⟨rfl, after⟩

/-- A walk in a scope of its own. -/
theorem inNewScope (owner : NodeKind)
    (meets : Meets number [] final (level :: outer) walk result events scopes) :
    Meets number level level outer (inNewScope owner walk) result events
      [{ owner := some owner, names := Level.names number final, children := scopes }] := by
  intro before children numbered grounded
  have opened : Grounded before ([] :: level :: outer) := by
    refine ⟨fun around isLevel site first => ?_, grounded.used⟩
    rcases List.mem_cons.mp isLevel with rfl | isOuter
    · exact nomatch first
    · exact grounded.visible around isOuter site first
  obtain ⟨ran, after⟩ := meets before [] numbered opened
  constructor
  · have opening : (reached number before level outer children).opened =
        reached number before [] (level :: outer) [] := rfl
    rw [inNewScope_eq, opening, ran]
    rfl
  · exact ⟨fun around isLevel => after.visible around (List.mem_cons_of_mem _ isLevel), after.used⟩

/-- A use of a name. -/
theorem use (use : Identifier) :
    Meets number level level outer (resolveIdentifier use)
      (use.linkedTo ((lexicalSite (level :: outer) use.name).map (Site.link number)))
      [.used use (lexicalSite (level :: outer) use.name)] [] := by
  intro before children numbered grounded
  rw [resolveIdentifier_reached use numbered.front grounded, List.append_nil]
  exact ⟨rfl, grounded.use use⟩

/-- The parameters of a function. -/
theorem parameters (start : Nat) (level : Level) (params : List Parameter) :
    Meets number level (level ++ Parameter.sites start params) outer (declareParameters params)
      (Parameter.linked number start level params) (Parameter.scoping start level params) [] := by
  induction params generalizing start level with
  | nil =>
    rw [Parameter.sites, List.append_nil]
    exact .pure []
  | cons param rest inductionHypothesis =>
    intro before children numbered grounded
    let site : Site := ⟨start, param.declarer⟩
    rw [Parameter.scoping, List.append_cons] at numbered ⊢
    obtain ⟨restRan, restGrounded⟩ := inductionHypothesis (start + 1) (level ++ [site])
      (before ++ [site.declared level]) children numbered (grounded.declare site)
    rw [List.append_assoc level] at restRan restGrounded
    refine ⟨?_, restGrounded⟩
    cases given : level.accept site with
    | none =>
      obtain ⟨refused, reported⟩ := declare_refused given
      change (declare param.name .parameter param.offset).run _ = _ at refused
      change ((report (.duplicateParameter param.name) param.offset).run _).2 = _ at reported
      rw [declareParameters_duplicate rest refused, Parameter.linked, given]
      simp only [reported, restRan]
      rfl
    | some first =>
      obtain rfl := (Level.accept_eq_some.mp given).2
      have accepted : (declare param.name .parameter param.offset).run
          (reached number before level outer children) = (some (site.link number), _) :=
        declare_accepted numbered.front grounded given
      rw [declareParameters_new rest accepted, restRan, Parameter.linked, given]
      rfl

/-- A constant is declared behind its initializer. -/
theorem constant (offset : Int) (id : Identifier) (ascription : Option Ascription)
    (inferred : Option Ty) (position : Nat) {initial value : Expression}
    (meets : Meets number level level outer (resolveExpression initial) value events scopes) :
    let site : Site := ⟨position, id.declarer offset⟩
    Meets number level (level ++ [site]) outer
      (resolveStatement (.constant offset id ascription initial inferred))
      (.constant offset (id.linkedTo ((level.accept site).map (Site.link number))) ascription value
        inferred) (events ++ [site.declared level]) scopes := by
  intro site before children numbered grounded
  rw [← List.append_assoc] at numbered ⊢
  obtain ⟨ran, after⟩ := meets before children numbered.front grounded
  refine ⟨?_, after.declare site⟩
  cases given : level.accept site with
  | none =>
    obtain ⟨refused, reported⟩ := declare_refused given
    change (declare id.name .constant offset).run _ = _ at refused
    change ((report (.duplicateDeclaration id.name) id.offset).run _).2 = _ at reported
    have duplicate := resolveStatement_duplicate offset id ascription initial inferred
      (by rw [ran]; exact refused)
    rw [duplicate, ran]
    simp only [reported]
    rfl
  | some first =>
    obtain rfl := (Level.accept_eq_some.mp given).2
    have accepted : (declare id.name .constant offset).run
        (reached number (before ++ events) level outer (children ++ scopes)) =
          (some (site.link number), _) := declare_accepted numbered after given
    have new := resolveStatement_new offset id ascription initial inferred
      (by rw [ran]; exact accepted)
    rw [new, ran]
    rfl

end Meets

/-! ## Trees -/

mutual

/-- The walk over an expression meets its uses and its declaring nodes. -/
theorem resolveExpression_meets (start : Nat) (level : Level) (outer : List Level)
    (expression : Expression) :
    Meets number level level outer (resolveExpression expression)
      (expression.linked number start (level :: outer))
      (expression.scoping start (level :: outer)) (expression.scopes number start) := by
  match expression with
  | .number _ _ | .string _ _ | .boolean _ _ => exact .pure _
  | .identifier use => exact (Meets.use use).map Expression.identifier
  | .array offset elements =>
    exact (resolveExpressions_meets start level outer elements).map (Expression.array offset)
  | .member offset object index =>
    exact (resolveExpression_meets start level outer object).bind
      ((resolveExpression_meets _ level outer index).map (Expression.member offset _))
  | .binary offset left operator right =>
    exact (resolveExpression_meets start level outer left).bind
      ((resolveExpression_meets _ level outer right).map (Expression.binary offset _ operator))
  | .conditional offset test consequent alternate =>
    exact (resolveExpression_meets start level outer test).bind
      ((resolveExpression_meets _ level outer consequent).bind
        ((resolveExpression_meets _ level outer alternate).map (Expression.conditional offset _ _)))
  | .arrow offset params result { offset := opening, statements } =>
    let body := start + params.length
    have block : Meets number (Parameter.sites start params)
        (Parameter.sites start params ++ Statement.sitesOf body statements) (level :: outer)
        (resolveBlock { offset := opening, statements }) _ _ _ :=
      (resolveStatements_meets body (Parameter.sites start params) (level :: outer)
        statements).map (Block.mk opening)
    exact ((Meets.parameters start [] params).bind
      (block.map (Expression.arrow offset _ result))).inNewScope .arrow
  | .call offset callee arguments =>
    exact (resolveExpression_meets start level outer callee).bind
      ((resolveExpressions_meets _ level outer arguments).map (Expression.call offset _))

/-- The walk over several expressions. -/
theorem resolveExpressions_meets (start : Nat) (level : Level) (outer : List Level)
    (expressions : List Expression) :
    Meets number level level outer (resolveExpressions expressions)
      (Expression.linkedAll number start (level :: outer) expressions)
      (Expression.scopingOf start (level :: outer) expressions)
      (Expression.scopesOf number start expressions) := by
  match expressions with
  | [] => exact .pure []
  | expression :: rest =>
    exact (resolveExpression_meets start level outer expression).bind
      ((resolveExpressions_meets _ level outer rest).map (List.cons _))

/-- The walk over a statement. A constant is in its level from then on. -/
theorem resolveStatement_meets (start : Nat) (level : Level) (outer : List Level)
    (statement : Statement) :
    Meets number level (level ++ statement.sites start) outer (resolveStatement statement)
      (statement.linked number start level outer) (statement.scoping start level outer)
      (statement.scopes number start) := by
  match statement with
  | .constant offset id ascription initial inferred =>
    exact (resolveExpression_meets start level outer initial).constant offset id ascription
      inferred _
  | .returning offset none inferred =>
    rw [Statement.sites, List.append_nil]
    exact .pure _
  | .returning offset (some argument) inferred =>
    rw [Statement.sites, List.append_nil]
    exact (resolveExpression_meets start level outer argument).map
      fun argument => Statement.returning offset (some argument) inferred

/-- The walk over several statements. -/
theorem resolveStatements_meets (start : Nat) (level : Level) (outer : List Level)
    (statements : List Statement) :
    Meets number level (level ++ Statement.sitesOf start statements) outer
      (resolveStatements statements) (Statement.linkedAll number start level outer statements)
      (Statement.scopingOf start level outer statements)
      (Statement.scopesOf number start statements) := by
  match statements with
  | [] =>
    rw [Statement.sitesOf, List.append_nil]
    exact .pure []
  | statement :: rest =>
    rw [Statement.sitesOf, ← List.append_assoc]
    exact (resolveStatement_meets start level outer statement).bind
      ((resolveStatements_meets _ _ outer rest).map (List.cons _))

end

end Resolver

namespace Program

/-- The walk over a program ends with its names linked, behind all of its events. -/
theorem resolve_reached (program : Program) :
    (Resolver.resolveStatements program.body).run {} =
        (program.linked.body, Resolver.reached program.number program.scoping
          (Statement.sitesOf 0 program.body) []
          (Statement.scopesOf program.number 0 program.body)) ∧
      Resolver.Grounded program.scoping [Statement.sitesOf 0 program.body] := by
  have grounded : Resolver.Grounded [] [[]] := by
    refine ⟨fun level isLevel site first => ?_, nofun⟩
    rw [List.mem_singleton.mp isLevel] at first
    exact nomatch first
  exact Resolver.resolveStatements_meets 0 [] [] program.body [] [] program.scoping_numbered
    grounded

/-- What the name resolution leaves of a program. -/
theorem resolve_eq (program : Program) :
    program.resolve =
      { program := program.linked
        scopes :=
          { root := program.scope
            declarations := (Resolver.table program.number program.scoping).toArray }
        diagnostics := program.lexicalEvents.filterMap Resolver.problem } := by
  simp only [resolve, program.resolve_reached.1]
  rfl

/-- Name resolution is lexical scoping. Every use is linked to the first declaration of its
name in the innermost level that has one, or reported if there is none; every declaring
node is linked to itself, or reported if its level has its name already; and nothing else is
reported. The uses and the declaring nodes are met once each, in the order of the source,
and no two declarations have the same number. -/
theorem resolve_lexical (program : Program) :
    program.resolve.program = program.linked ∧
      program.resolve.diagnostics = program.lexicalEvents.filterMap Resolver.problem ∧
      program.uses = program.scoping.filterMap ScopeEvent.use? ∧
      program.linked.uses = program.lexicalEvents.filterMap Resolver.linked ∧
      program.declarers = program.scoping.filterMap ScopeEvent.declarer? ∧
      program.sites.map program.number = List.range program.sites.length := by
  have lists := Statement.scopingOf_lists program.number 0 [] [] program.body
  rw [resolve_eq]
  exact ⟨rfl, rfl, lists.uses, lists.linked, lists.declarers, program.scoping_numbered⟩

end Program

end ArrowScript
