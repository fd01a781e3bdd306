import ArrowScript.Scope.Resolution
import ArrowScript.Validation

/-!
# Proper programs

A program is proper when every name that it uses is in scope where it is used, and when
in function bodies only the last statement is a return. This is what the validation and
the name resolution are there for: a tree on which both have nothing to report leaves
the resolution as a proper one.
-/

namespace ArrowScript

/-- Only the last statement of a body may be a return. -/
def ReturnsLast (body : List Statement) : Prop :=
  ∀ statement ∈ body.dropLast, statement.isReturn = false

/-- Only the last statement of a body is a return if no return is reported as an earlier
one. -/
theorem returnsLast_of_earlyReturns {body : List Statement} (valid : earlyReturns body = []) :
    ReturnsLast body := by
  rw [earlyReturns, List.map_eq_nil_iff, List.filter_eq_nil_iff] at valid
  exact fun statement member => Bool.eq_false_iff.mpr (valid statement member)

/-- Which statements are returns is all that matters. -/
theorem returnsLast_congr {body other : List Statement} (last : ReturnsLast body)
    (same : other.map Statement.isReturn = body.map Statement.isReturn) : ReturnsLast other := by
  intro statement member
  have inOther : statement.isReturn ∈ other.dropLast.map Statement.isReturn :=
    List.mem_map_of_mem member
  rw [List.map_dropLast, same, ← List.map_dropLast] at inOther
  obtain ⟨original, isOriginal, here⟩ := List.mem_map.mp inOther
  rw [← here]
  exact last original isOriginal

/-- The name that a statement declares, if it declares one. -/
def Statement.names : Statement → List String
  | .constant _ id _ _ _ => [id.name]
  | .returning _ _ _ => []

mutual

/-- An expression is proper with the given names in scope. -/
def Expression.Proper (names : List String) : Expression → Prop
  | .number _ _ | .string _ _ | .boolean _ _ => True
  | .identifier identifier => identifier.name ∈ names
  | .array _ elements => Expression.AllProper names elements
  | .member _ object index => object.Proper names ∧ index.Proper names
  | .binary _ left _ right => left.Proper names ∧ right.Proper names
  | .conditional _ test consequent alternate =>
    test.Proper names ∧ consequent.Proper names ∧ alternate.Proper names
  | .arrow _ params _ { statements, .. } =>
    ReturnsLast statements ∧ Statement.AllProper (params.map (·.name) ++ names) statements
  | .call _ callee arguments => callee.Proper names ∧ Expression.AllProper names arguments

/-- Several expressions are proper with the given names in scope. -/
def Expression.AllProper (names : List String) : List Expression → Prop
  | [] => True
  | expression :: rest => expression.Proper names ∧ Expression.AllProper names rest

/-- A statement is proper with the given names in scope. -/
def Statement.Proper (names : List String) : Statement → Prop
  | .constant _ _ _ initial _ => initial.Proper names
  | .returning _ (some argument) _ => argument.Proper names
  | .returning _ none _ => True

/-- Several statements are proper. A constant is in scope behind its declaration. -/
def Statement.AllProper (names : List String) : List Statement → Prop
  | [] => True
  | statement :: rest =>
    statement.Proper names ∧ Statement.AllProper (statement.names ++ names) rest

end

/-! ## More names in scope -/

/-- A declaration leaves more names in scope where there were more before. -/
theorem subset_declaring {names more : List String} (subset : names ⊆ more)
    (declared : List String) : declared ++ names ⊆ declared ++ more :=
  List.append_subset.mpr
    ⟨List.subset_append_left _ _, List.subset_append_of_subset_right _ subset⟩

mutual

/-- An expression stays proper with more names in scope. -/
theorem Expression.Proper.mono {names more : List String} (subset : names ⊆ more)
    (expression : Expression) (proper : expression.Proper names) : expression.Proper more := by
  match expression with
  | .number _ _ | .string _ _ | .boolean _ _ => exact trivial
  | .identifier identifier => exact subset proper
  | .array _ elements => exact Expression.AllProper.mono subset elements proper
  | .member _ object index =>
    exact ⟨Expression.Proper.mono subset object proper.1,
      Expression.Proper.mono subset index proper.2⟩
  | .binary _ left _ right =>
    exact ⟨Expression.Proper.mono subset left proper.1,
      Expression.Proper.mono subset right proper.2⟩
  | .conditional _ test consequent alternate =>
    exact ⟨Expression.Proper.mono subset test proper.1,
      Expression.Proper.mono subset consequent proper.2.1,
      Expression.Proper.mono subset alternate proper.2.2⟩
  | .arrow _ params _ { statements, .. } =>
    exact ⟨proper.1, Statement.AllProper.mono (subset_declaring subset _) statements proper.2⟩
  | .call _ callee arguments =>
    exact ⟨Expression.Proper.mono subset callee proper.1,
      Expression.AllProper.mono subset arguments proper.2⟩

/-- Several expressions stay proper with more names in scope. -/
theorem Expression.AllProper.mono {names more : List String} (subset : names ⊆ more)
    (expressions : List Expression) (proper : Expression.AllProper names expressions) :
    Expression.AllProper more expressions := by
  match expressions with
  | [] => exact trivial
  | expression :: rest =>
    exact ⟨Expression.Proper.mono subset expression proper.1,
      Expression.AllProper.mono subset rest proper.2⟩

/-- A statement stays proper with more names in scope. -/
theorem Statement.Proper.mono {names more : List String} (subset : names ⊆ more)
    (statement : Statement) (proper : statement.Proper names) : statement.Proper more := by
  match statement with
  | .constant _ _ _ initial _ => exact Expression.Proper.mono subset initial proper
  | .returning _ (some argument) _ => exact Expression.Proper.mono subset argument proper
  | .returning _ none _ => exact trivial

/-- Several statements stay proper with more names in scope. -/
theorem Statement.AllProper.mono {names more : List String} (subset : names ⊆ more)
    (statements : List Statement) (proper : Statement.AllProper names statements) :
    Statement.AllProper more statements := by
  match statements with
  | [] => exact trivial
  | statement :: rest =>
    exact ⟨Statement.Proper.mono subset statement proper.1,
      Statement.AllProper.mono (subset_declaring subset _) rest proper.2⟩

end

/-! ## Walks of the resolution -/

/-- The names that are in scope at a place of a walk. -/
def Resolution.visible (resolution : Resolution) : List String :=
  (resolution.names :: resolution.enclosing).flatMap (·.map (·.1))

namespace Resolver

/-- A name is found exactly if it is in scope. -/
theorem findSome_isSome (scopes : List Names) (name : String) :
    (scopes.findSome? (·.lookup name)).isSome ↔ name ∈ scopes.flatMap (·.map (·.1)) := by
  have inScope (names : Names) : (names.lookup name).isSome ↔ name ∈ names.map (·.1) := by
    simp [List.lookup_isSome_iff, eq_comm (a := name)]
  simp only [List.findSome?_isSome_iff, inScope, List.mem_flatMap]

/-- What a walk over a part of a tree keeps: the scopes around the current one, and the
problems. It adds names to the current scope at most. -/
structure Visits (before after : Resolution) (declared : List String) : Prop where
  enclosing : after.enclosing = before.enclosing
  names : after.names.map (·.1) = before.names.map (·.1) ++ declared
  diagnostics : before.diagnostics <+: after.diagnostics

variable {before between after resolution : Resolution} {declared others : List String}

/-- A walk that does nothing. -/
theorem Visits.refl (resolution : Resolution) : Visits resolution resolution [] :=
  ⟨rfl, by simp, List.prefix_refl _⟩

/-- Two walks, one after the other. -/
theorem Visits.append (first : Visits before between declared)
    (second : Visits between after others) : Visits before after (declared ++ others) where
  enclosing := second.enclosing.trans first.enclosing
  names := by rw [second.names, first.names, List.append_assoc]
  diagnostics := first.diagnostics.trans second.diagnostics

/-- A walk with no problems at its end has had none at its start. -/
theorem Visits.none_before (visits : Visits before after declared)
    (none : after.diagnostics = []) : before.diagnostics = [] :=
  List.prefix_nil.mp (none ▸ visits.diagnostics)

/-- What is in scope behind a walk: what was before, and what it has declared. -/
theorem Visits.visible (visits : Visits before after declared) (name : String) :
    name ∈ after.visible ↔ name ∈ declared ++ before.visible := by
  simp only [Resolution.visible, List.flatMap_cons, visits.names, visits.enclosing,
    List.mem_append, or_assoc, or_left_comm]

/-- Behind a walk that declares nothing the same names are in scope. -/
theorem Visits.same (visits : Visits before after []) : after.visible ⊆ before.visible :=
  fun name member => by simpa using (visits.visible name).mp member

/-- Two steps of a walk, one after the other. -/
theorem run_bind {α β : Type} (first : Resolver α) (next : α → Resolver β)
    (resolution : Resolution) :
    (first >>= next).run resolution =
      (next (first.run resolution).1).run (first.run resolution).2 :=
  rfl

/-- A step that only returns a value. -/
theorem run_pure {α : Type} (value : α) (resolution : Resolution) :
    (pure value : Resolver α).run resolution = (value, resolution) := rfl

/-- Reporting a problem does not stay unnoticed. -/
theorem report_visits (problem : Problem) (offset : Int) (resolution : Resolution) :
    Visits resolution ((report problem offset).run resolution).2 [] ∧
      ((report problem offset).run resolution).2.diagnostics ≠ [] := by
  refine ⟨⟨rfl, (List.append_nil _).symm, List.prefix_append _ _⟩, ?_⟩
  change resolution.diagnostics ++ [_] ≠ []
  simp

/-- A use of a name, given the number of its declaration. -/
theorem resolveIdentifier_eq (identifier : Identifier) (resolution : Resolution) :
    (resolveIdentifier identifier).run resolution =
      match (resolution.names :: resolution.enclosing).findSome?
        (·.lookup identifier.name) with
      | none =>
        (identifier,
          ((report (.undeclaredReference identifier.name) identifier.offset).run resolution).2)
      | some number =>
        let referred := ((refer number identifier.offset).run resolution).2
        (match referred.declarations[number]? with
          | some declaration => { identifier with declaration := some declaration.link }
          | none => identifier, referred) := by
  have lookupRan : (lookup identifier.name).run resolution =
      ((resolution.names :: resolution.enclosing).findSome? (·.lookup identifier.name),
        resolution) := rfl
  rw [resolveIdentifier, run_bind, lookupRan]
  cases (resolution.names :: resolution.enclosing).findSome? (·.lookup identifier.name) with
  | none => rfl
  | some number =>
    let referred := ((refer number identifier.offset).run resolution).2
    have linked (declaration? : Option Declaration) :
        (match declaration? with
          | some declaration =>
            pure { identifier with declaration := some declaration.link }
          | none => pure identifier : Resolver Identifier).run referred =
        (match declaration? with
          | some declaration => { identifier with declaration := some declaration.link }
          | none => identifier, referred) := by
      cases declaration? <;> rfl
    exact linked _

/-- A use of a name keeps the name, and without a problem the name is in scope. -/
theorem resolveIdentifier_spec (identifier : Identifier) (resolution : Resolution) :
    ∃ linked after, (resolveIdentifier identifier).run resolution = (linked, after) ∧
      Visits resolution after [] ∧
      (after.diagnostics = [] → linked.name ∈ resolution.visible) := by
  have searched := findSome_isSome (resolution.names :: resolution.enclosing) identifier.name
  rw [resolveIdentifier_eq]
  cases found : (resolution.names :: resolution.enclosing).findSome?
      (·.lookup identifier.name) with
  | none =>
    obtain ⟨visits, reported⟩ :=
      report_visits (.undeclaredReference identifier.name) identifier.offset resolution
    exact ⟨identifier, _, rfl, visits, fun quiet => absurd quiet reported⟩
  | some number =>
    rw [found] at searched
    refine ⟨_, _, rfl, ⟨rfl, (List.append_nil _).symm, List.prefix_refl _⟩, fun _ => ?_⟩
    have inScope : identifier.name ∈ resolution.visible := searched.mp rfl
    split
    · exact inScope
    · exact inScope

/-- A declaration, given whether the scope has the name already. -/
theorem declare_eq (name : String) (kind : DeclarationKind) (offset : Int)
    (resolution : Resolution) :
    (declare name kind offset).run resolution =
      if (resolution.names.lookup name).isSome then (none, resolution)
      else
        let link : Link := { number := resolution.declarations.size, name, kind, offset }
        (some link,
          { resolution with
            names := resolution.names ++ [(name, link.number)]
            declarations := resolution.declarations.push { link } }) := by
  rw [declare, run_bind]
  change (if (resolution.names.lookup name).isSome then pure none else _ :
    Resolver (Option Link)).run resolution = _
  split <;> rfl

/-- A name is declared, unless the scope has it already. -/
theorem declare_spec (name : String) (kind : DeclarationKind) (offset : Int)
    (resolution : Resolution) :
    (declare name kind offset).run resolution = (none, resolution) ∨
      ∃ link after, (declare name kind offset).run resolution = (some link, after) ∧
        Visits resolution after [name] := by
  rw [declare_eq]
  by_cases taken : (resolution.names.lookup name).isSome
  · exact .inl (if_pos taken)
  · refine .inr ⟨_, _, if_neg taken, rfl, ?_, List.prefix_refl _⟩
    simp

/-- A parameter whose name the scope has already is reported. -/
theorem declareParameters_duplicate {param : Parameter} (rest : List Parameter)
    {resolution : Resolution}
    (ran : (declare param.name .parameter param.offset).run resolution = (none, resolution)) :
    (declareParameters (param :: rest)).run resolution =
      let reported := ((report (.duplicateParameter param.name) param.offset).run resolution).2
      let others := (declareParameters rest).run reported
      (param :: others.1, others.2) := by
  rw [declareParameters, run_bind, ran]
  rfl

/-- A parameter whose name is new is linked to itself. -/
theorem declareParameters_new {param : Parameter} (rest : List Parameter)
    {resolution between : Resolution} {link : Link}
    (ran : (declare param.name .parameter param.offset).run resolution = (some link, between)) :
    (declareParameters (param :: rest)).run resolution =
      let others := (declareParameters rest).run between
      ({ param with declaration := some link } :: others.1, others.2) := by
  rw [declareParameters, run_bind, ran]
  rfl

/-- Parameters keep their names, and without a problem all of them are declared. -/
theorem declareParameters_spec (params : List Parameter) (resolution : Resolution) :
    ∃ linked after declared, (declareParameters params).run resolution = (linked, after) ∧
      Visits resolution after declared ∧
      (after.diagnostics = [] →
        declared = params.map (·.name) ∧ linked.map (·.name) = params.map (·.name)) := by
  induction params generalizing resolution with
  | nil => exact ⟨[], resolution, [], rfl, .refl resolution, fun _ => ⟨rfl, rfl⟩⟩
  | cons param rest inductionHypothesis =>
    rcases declare_spec param.name .parameter param.offset resolution with
      ran | ⟨link, between, ran, visits⟩
    · obtain ⟨visits, reported⟩ :=
        report_visits (.duplicateParameter param.name) param.offset resolution
      obtain ⟨linked, after, declared, restRan, restVisits, -⟩ :=
        inductionHypothesis ((report (.duplicateParameter param.name) param.offset).run
          resolution).2
      refine ⟨param :: linked, after, declared, ?_, visits.append restVisits, fun quiet => ?_⟩
      · simp only [declareParameters_duplicate rest ran, restRan]
      · exact absurd (restVisits.none_before quiet) reported
    · obtain ⟨linked, after, declared, restRan, restVisits, names⟩ :=
        inductionHypothesis between
      refine ⟨{ param with declaration := some link } :: linked, after, param.name :: declared,
        ?_, visits.append restVisits, fun quiet => ?_⟩
      · simp only [declareParameters_new rest ran, restRan]
      · obtain ⟨declaredEq, linkedEq⟩ := names quiet
        exact ⟨by rw [declaredEq, List.map_cons], by rw [List.map_cons, linkedEq, List.map_cons]⟩

/-! ## Walks over trees -/

/-- The walk over an index. -/
theorem resolveExpression_member (offset : Int) (object index : Expression)
    (resolution : Resolution) :
    (resolveExpression (.member offset object index)).run resolution =
      let first := (resolveExpression object).run resolution
      let second := (resolveExpression index).run first.2
      (.member offset first.1 second.1, second.2) := rfl

/-- The walk over a binary expression. -/
theorem resolveExpression_binary (offset : Int) (left : Expression) (operator : String)
    (right : Expression) (resolution : Resolution) :
    (resolveExpression (.binary offset left operator right)).run resolution =
      let first := (resolveExpression left).run resolution
      let second := (resolveExpression right).run first.2
      (.binary offset first.1 operator second.1, second.2) := rfl

/-- The walk over a conditional. -/
theorem resolveExpression_conditional (offset : Int) (test consequent alternate : Expression)
    (resolution : Resolution) :
    (resolveExpression (.conditional offset test consequent alternate)).run resolution =
      let first := (resolveExpression test).run resolution
      let second := (resolveExpression consequent).run first.2
      let third := (resolveExpression alternate).run second.2
      (.conditional offset first.1 second.1 third.1, third.2) := rfl

/-- The walk over a function. Its scope is closed behind it. -/
theorem resolveExpression_arrow (offset opening : Int) (params : List Parameter)
    (result : Option Ascription) (statements : List Statement) (resolution : Resolution) :
    (resolveExpression (.arrow offset params result { offset := opening, statements })).run
        resolution =
      let inner : Resolution :=
        { resolution with
          names := []
          enclosing := resolution.names :: resolution.enclosing
          children := [] }
      let declared := (declareParameters params).run inner
      let body := (resolveStatements statements).run declared.2
      let closed : Scope :=
        { owner := some .arrow, names := body.2.names, children := body.2.children }
      (.arrow offset declared.1 result { offset := opening, statements := body.1 },
        { body.2 with
          names := resolution.names
          enclosing := resolution.enclosing
          children := resolution.children ++ [closed] }) := rfl

/-- The walk over a call. -/
theorem resolveExpression_call (offset : Int) (callee : Expression)
    (arguments : List Expression) (resolution : Resolution) :
    (resolveExpression (.call offset callee arguments)).run resolution =
      let first := (resolveExpression callee).run resolution
      let others := (resolveExpressions arguments).run first.2
      (.call offset first.1 others.1, others.2) := rfl

/-- The walk over a constant whose name the scope has already. -/
theorem resolveStatement_duplicate (offset : Int) (id : Identifier)
    (ascription : Option Ascription) (initial : Expression) (inferred : Option Ty)
    {resolution : Resolution}
    (ran : (declare id.name .constant offset).run
      ((resolveExpression initial).run resolution).2 =
        (none, ((resolveExpression initial).run resolution).2)) :
    (resolveStatement (.constant offset id ascription initial inferred)).run resolution =
      let value := (resolveExpression initial).run resolution
      let reported := ((report (.duplicateDeclaration id.name) id.offset).run value.2).2
      (.constant offset id ascription value.1 inferred, reported) := by
  rw [resolveStatement, run_bind, run_bind, ran]
  rfl

/-- The walk over a constant whose name is new. -/
theorem resolveStatement_new (offset : Int) (id : Identifier)
    (ascription : Option Ascription) (initial : Expression) (inferred : Option Ty)
    {resolution after : Resolution} {link : Link}
    (ran : (declare id.name .constant offset).run
      ((resolveExpression initial).run resolution).2 = (some link, after)) :
    (resolveStatement (.constant offset id ascription initial inferred)).run resolution =
      (.constant offset { id with declaration := some link } ascription
        ((resolveExpression initial).run resolution).1 inferred, after) := by
  rw [resolveStatement, run_bind, run_bind, ran]
  rfl

/-- The walk over several expressions. -/
theorem resolveExpressions_cons (first : Expression) (rest : List Expression)
    (resolution : Resolution) :
    (resolveExpressions (first :: rest)).run resolution =
      let head := (resolveExpression first).run resolution
      let tail := (resolveExpressions rest).run head.2
      (head.1 :: tail.1, tail.2) := rfl

/-- The walk over several statements. -/
theorem resolveStatements_cons (first : Statement) (rest : List Statement)
    (resolution : Resolution) :
    (resolveStatements (first :: rest)).run resolution =
      let head := (resolveStatement first).run resolution
      let tail := (resolveStatements rest).run head.2
      (head.1 :: tail.1, tail.2) := rfl

/-- What a walk over an expression leaves: without a problem a valid tree is proper. -/
structure Leaves (before after : Resolution) (problems : List Diagnostic)
    (proper : List String → Prop) : Prop where
  visits : Visits before after []
  proper : after.diagnostics = [] → problems = [] → proper before.visible

/-- A walk that visits nothing. -/
theorem Leaves.trivially (resolution : Resolution) (problems : List Diagnostic) :
    Leaves resolution resolution problems fun _ => True :=
  ⟨.refl resolution, fun _ _ => trivial⟩

/-- Two walks over parts of an expression. -/
theorem Leaves.append {problems further : List Diagnostic} {proper also : List String → Prop}
    (first : Leaves before between problems proper) (second : Leaves between after further also)
    (mono : ∀ {names more}, names ⊆ more → also names → also more) :
    Leaves before after (problems ++ further) fun names => proper names ∧ also names where
  visits := first.visits.append second.visits
  proper quiet valid := by
    obtain ⟨validFirst, validSecond⟩ := List.append_eq_nil_iff.mp valid
    exact ⟨first.proper (second.visits.none_before quiet) validFirst,
      mono first.visits.same (second.proper quiet validSecond)⟩

mutual

/-- Without a problem, the walk over a valid expression leaves a proper one. -/
theorem resolveExpression_leaves (expression : Expression) (resolution : Resolution) :
    Leaves resolution ((resolveExpression expression).run resolution).2 expression.validate
      fun names => ((resolveExpression expression).run resolution).1.Proper names := by
  match expression with
  | .number offset value => exact .trivially resolution _
  | .string offset value => exact .trivially resolution _
  | .boolean offset value => exact .trivially resolution _
  | .identifier identifier =>
    obtain ⟨linked, after, ran, visits, inScope⟩ := resolveIdentifier_spec identifier resolution
    have eq : (resolveExpression (.identifier identifier)).run resolution =
        (.identifier linked, after) := by
      rw [resolveExpression, run_bind, ran, run_pure]
    rw [eq]
    exact ⟨visits, fun quiet _ => inScope quiet⟩
  | .array offset elements => exact resolveExpressions_leaves elements resolution
  | .member offset object index =>
    rw [resolveExpression_member]
    exact (resolveExpression_leaves object resolution).append (resolveExpression_leaves index _)
      fun subset => Expression.Proper.mono subset _
  | .binary offset left operator right =>
    rw [resolveExpression_binary]
    exact (resolveExpression_leaves left resolution).append (resolveExpression_leaves right _)
      fun subset => Expression.Proper.mono subset _
  | .conditional offset test consequent alternate =>
    rw [resolveExpression_conditional, Expression.validate, List.append_assoc]
    refine (resolveExpression_leaves test resolution).append
      ((resolveExpression_leaves consequent _).append (resolveExpression_leaves alternate _)
        fun subset => Expression.Proper.mono subset _) fun subset proper => ?_
    exact ⟨Expression.Proper.mono subset _ proper.1, Expression.Proper.mono subset _ proper.2⟩
  | .arrow offset params result { offset := opening, statements } =>
    let inner : Resolution :=
      { resolution with
        names := []
        enclosing := resolution.names :: resolution.enclosing
        children := [] }
    obtain ⟨linked, opened, declared, paramsRan, entered, declares⟩ :=
      declareParameters_spec params inner
    obtain ⟨body, left, further, ran, visits, same, proper⟩ :=
      resolveStatements_leaves statements opened
    have whole := entered.append visits
    simp only [resolveExpression_arrow, inner, paramsRan, ran]
    refine ⟨⟨rfl, (List.append_nil _).symm, whole.diagnostics⟩, fun quiet valid => ?_⟩
    obtain ⟨validReturns, validBody⟩ := List.append_eq_nil_iff.mp valid
    obtain ⟨declaredEq, linkedEq⟩ := declares (visits.none_before quiet)
    refine ⟨returnsLast_congr (returnsLast_of_earlyReturns validReturns) same, ?_⟩
    rw [linkedEq, ← declaredEq]
    -- the names of the scope around the function stay in scope inside it
    exact Statement.AllProper.mono (fun name member => (entered.visible name).mp member) body
      (proper quiet validBody)
  | .call offset callee arguments =>
    rw [resolveExpression_call]
    exact (resolveExpression_leaves callee resolution).append
      (resolveExpressions_leaves arguments _) fun subset => Expression.AllProper.mono subset _

/-- Without a problem, the walk over valid expressions leaves proper ones. -/
theorem resolveExpressions_leaves (expressions : List Expression) (resolution : Resolution) :
    Leaves resolution ((resolveExpressions expressions).run resolution).2
      (Expression.validateAll expressions)
      fun names =>
        Expression.AllProper names ((resolveExpressions expressions).run resolution).1 := by
  match expressions with
  | [] => exact .trivially resolution _
  | expression :: rest =>
    rw [resolveExpressions_cons]
    exact (resolveExpression_leaves expression resolution).append
      (resolveExpressions_leaves rest _) fun subset => Expression.AllProper.mono subset _

/-- Without a problem, the walk over a valid statement leaves a proper one, and the name
that the statement declares is in scope behind it. -/
theorem resolveStatement_leaves (statement : Statement) (resolution : Resolution) :
    ∃ linked after declared, (resolveStatement statement).run resolution = (linked, after) ∧
      Visits resolution after declared ∧ linked.isReturn = statement.isReturn ∧
      (after.diagnostics = [] → statement.validate = [] →
        declared = linked.names ∧ linked.Proper resolution.visible) := by
  match statement with
  | .constant offset id ascription initial inferred =>
    have value := resolveExpression_leaves initial resolution
    rcases declare_spec id.name .constant offset ((resolveExpression initial).run resolution).2
      with ran | ⟨link, after, ran, visits⟩
    · obtain ⟨visits, reported⟩ := report_visits (.duplicateDeclaration id.name) id.offset
        ((resolveExpression initial).run resolution).2
      exact ⟨_, _, _, resolveStatement_duplicate offset id ascription initial inferred ran,
        value.visits.append visits, rfl, fun quiet => absurd quiet reported⟩
    · refine ⟨_, _, _, resolveStatement_new offset id ascription initial inferred ran,
        value.visits.append visits, rfl, fun quiet valid => ⟨rfl, ?_⟩⟩
      exact value.proper (visits.none_before quiet) valid
  | .returning offset none inferred =>
    exact ⟨.returning offset none inferred, resolution, [], rfl, .refl resolution, rfl,
      fun _ _ => ⟨rfl, trivial⟩⟩
  | .returning offset (some argument) inferred =>
    have value := resolveExpression_leaves argument resolution
    exact ⟨.returning offset (some ((resolveExpression argument).run resolution).1) inferred, _, [],
      rfl, value.visits, rfl, fun quiet valid => ⟨rfl, value.proper quiet valid⟩⟩

/-- Without a problem, the walk over valid statements leaves proper ones. -/
theorem resolveStatements_leaves (statements : List Statement) (resolution : Resolution) :
    ∃ linked after declared, (resolveStatements statements).run resolution = (linked, after) ∧
      Visits resolution after declared ∧
      linked.map Statement.isReturn = statements.map Statement.isReturn ∧
      (after.diagnostics = [] → Statement.validateAll statements = [] →
        Statement.AllProper resolution.visible linked) := by
  match statements with
  | [] => exact ⟨[], resolution, [], rfl, .refl resolution, rfl, fun _ _ => trivial⟩
  | statement :: rest =>
    obtain ⟨first, between, declared, ran, visits, isReturn, proper⟩ :=
      resolveStatement_leaves statement resolution
    obtain ⟨others, after, further, restRan, restVisits, same, restProper⟩ :=
      resolveStatements_leaves rest between
    refine ⟨first :: others, after, declared ++ further, ?_, visits.append restVisits, ?_, ?_⟩
    · simp only [resolveStatements_cons, ran, restRan]
    · rw [List.map_cons, List.map_cons, isReturn, same]
    · intro quiet valid
      obtain ⟨validFirst, validRest⟩ := List.append_eq_nil_iff.mp valid
      obtain ⟨rfl, firstProper⟩ := proper (restVisits.none_before quiet) validFirst
      refine ⟨firstProper, Statement.AllProper.mono ?_ others (restProper quiet validRest)⟩
      exact fun name member => (visits.visible name).mp member

end

end Resolver

/-- A program on which the validation and the name resolution have nothing to report leaves
the resolution as a proper one. -/
theorem Program.resolve_proper {program : Program} (valid : program.validate = [])
    (quiet : program.resolve.diagnostics = []) :
    Statement.AllProper [] program.resolve.program.body := by
  obtain ⟨linked, after, declared, ran, -, -, proper⟩ :=
    Resolver.resolveStatements_leaves program.body {}
  have resolved : program.resolve.program.body = linked ∧
      program.resolve.diagnostics = after.diagnostics := by
    simp only [Program.resolve, ran, and_self]
  rw [resolved.2] at quiet
  rw [resolved.1]
  exact proper quiet valid

end ArrowScript
