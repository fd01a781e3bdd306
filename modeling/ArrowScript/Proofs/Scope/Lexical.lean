import ArrowScript.Proofs.Scope.Events

/-!
# Lexical scoping

Which declaration a name stands for is told by the place where it is used. Around a place
there are levels: the innermost function, the functions around it, and the program. A
level has the parameters of its function and the constants that stand completely before
the place. A use of a name refers to the first declaration of the name in the innermost
level that has one.

This module says so by recursion over the tree, with the levels around each part of it
and nothing else: no table, no list that is changed, no order of steps. A declaring node is
identified by its position among all declaring nodes of the program, so two nodes are
told apart even if nothing else does.
-/

namespace ArrowScript

/-! ## Declaring nodes -/

/-- A constant as a node that declares its name. -/
def Identifier.declarer (id : Identifier) (offset : Int) : Declarer :=
  ⟨.constant, id.name, offset, id.offset⟩

mutual

/-- The nodes that declare names in an expression, in the order of the source. -/
def Expression.declarers : Expression → List Declarer
  | .number _ _ | .string _ _ | .boolean _ _ | .identifier _ => []
  | .array _ elements => Expression.declarersOf elements
  | .member _ object index => object.declarers ++ index.declarers
  | .binary _ left _ right => left.declarers ++ right.declarers
  | .conditional _ test consequent alternate =>
    test.declarers ++ (consequent.declarers ++ alternate.declarers)
  | .arrow _ params _ { statements, .. } =>
    params.map (·.declarer) ++ Statement.declarersOf statements
  | .call _ callee arguments => callee.declarers ++ Expression.declarersOf arguments

/-- The nodes that declare names in several expressions. -/
def Expression.declarersOf : List Expression → List Declarer
  | [] => []
  | expression :: rest => expression.declarers ++ Expression.declarersOf rest

/-- The nodes that declare names in a statement. A constant comes behind its initializer. -/
def Statement.declarers : Statement → List Declarer
  | .constant offset id _ initial _ => initial.declarers ++ [id.declarer offset]
  | .returning _ none _ => []
  | .returning _ (some argument) _ => argument.declarers

/-- The nodes that declare names in several statements. -/
def Statement.declarersOf : List Statement → List Declarer
  | [] => []
  | statement :: rest => statement.declarers ++ Statement.declarersOf rest

end

/-- A declaring node with its position among all declaring nodes of the program. -/
structure Site where
  position : Nat
  declarer : Declarer
  deriving DecidableEq, Repr

/-- The declaring nodes of a function, or of the program, in the order of the source. -/
abbrev Level := List Site

namespace Level

/-- The first declaration of a name in a level. -/
def first? (level : Level) (name : String) : Option Site :=
  level.find? (·.declarer.name == name)

/-- A declaring node is accepted in a level behind others if none of them has its name. -/
def accept (level : Level) (site : Site) : Option Site :=
  if (level.first? site.declarer.name).isSome then none else some site

/-- The declaring nodes of a level that are the first of their names. -/
def firsts (level : Level) : Level :=
  level.foldl (fun kept site => kept ++ (accept kept site).toList) []

end Level

/-- The declaration that a name refers to, given the levels around its use from the inside
outwards. -/
def lexicalSite (levels : List Level) (name : String) : Option Site :=
  levels.findSome? (Level.first? · name)

/-- The declaring nodes at the parameters of a function. -/
def Parameter.sites (start : Nat) : List Parameter → Level
  | [] => []
  | param :: rest => ⟨start, param.declarer⟩ :: Parameter.sites (start + 1) rest

/-- The declaring node of a statement in its own level. Before it come those inside of it. -/
def Statement.sites (start : Nat) : Statement → Level
  | .constant offset id _ initial _ => [⟨start + initial.declarers.length, id.declarer offset⟩]
  | .returning _ _ _ => []

/-- The declaring nodes of several statements in their own level. -/
def Statement.sitesOf (start : Nat) : List Statement → Level
  | [] => []
  | statement :: rest =>
    statement.sites start ++ Statement.sitesOf (start + statement.declarers.length) rest

/-! ## What names refer to -/

/-- An event of lexical scoping: a use with the declaring node that it refers to, or a
declaring node, given again if it is the first of its name in its level. -/
abbrev LexicalEvent := ScopeEvent Site (Option Site)

namespace ScopeEvent

/-- The declaring node at an event, if it is one. -/
def declarer? {Found Given : Type} : ScopeEvent Found Given → Option Declarer
  | .used _ _ => none
  | .declared declarer _ => some declarer

/-- The declaring node that is accepted at an event. -/
def accepted : LexicalEvent → Option Site
  | .used _ _ => none
  | .declared _ given => given

end ScopeEvent

/-- A declaring node behind others of its level. -/
def Site.declared (site : Site) (level : Level) : LexicalEvent :=
  .declared site.declarer (level.accept site)

/-- The parameters of a function, behind others of its level. -/
def Parameter.scoping (start : Nat) (level : Level) : List Parameter → List LexicalEvent
  | [] => []
  | param :: rest =>
    Site.declared ⟨start, param.declarer⟩ level ::
      Parameter.scoping (start + 1) (level ++ [⟨start, param.declarer⟩]) rest

mutual

/-- The uses and the declaring nodes in an expression, given the levels around it and the
position of its first declaring node. -/
def Expression.scoping (start : Nat) (levels : List Level) : Expression → List LexicalEvent
  | .number _ _ | .string _ _ | .boolean _ _ => []
  | .identifier use => [.used use (lexicalSite levels use.name)]
  | .array _ elements => Expression.scopingOf start levels elements
  | .member _ object index =>
    object.scoping start levels ++ index.scoping (start + object.declarers.length) levels
  | .binary _ left _ right =>
    left.scoping start levels ++ right.scoping (start + left.declarers.length) levels
  | .conditional _ test consequent alternate =>
    let second := start + test.declarers.length
    let third := second + consequent.declarers.length
    test.scoping start levels ++
      (consequent.scoping second levels ++ alternate.scoping third levels)
  | .arrow _ params _ { statements, .. } =>
    Parameter.scoping start [] params ++
      Statement.scopingOf (start + params.length) (Parameter.sites start params) levels statements
  | .call _ callee arguments =>
    callee.scoping start levels ++
      Expression.scopingOf (start + callee.declarers.length) levels arguments

/-- The uses and the declaring nodes in several expressions. -/
def Expression.scopingOf (start : Nat) (levels : List Level) :
    List Expression → List LexicalEvent
  | [] => []
  | expression :: rest =>
    expression.scoping start levels ++
      Expression.scopingOf (start + expression.declarers.length) levels rest

/-- The uses and the declaring nodes in a statement, behind others of its level. -/
def Statement.scoping (start : Nat) (level : Level) (outer : List Level) :
    Statement → List LexicalEvent
  | .constant offset id _ initial _ =>
    initial.scoping start (level :: outer) ++
      [Site.declared ⟨start + initial.declarers.length, id.declarer offset⟩ level]
  | .returning _ none _ => []
  | .returning _ (some argument) _ => argument.scoping start (level :: outer)

/-- The uses and the declaring nodes in several statements. A constant is in the level of the
statements behind it. -/
def Statement.scopingOf (start : Nat) (level : Level) (outer : List Level) :
    List Statement → List LexicalEvent
  | [] => []
  | statement :: rest =>
    statement.scoping start level outer ++
      Statement.scopingOf (start + statement.declarers.length) (level ++ statement.sites start)
        outer rest

end

/-! ## Links -/

/-- A name with a link, if there is one for it. -/
def Identifier.linkedTo (id : Identifier) : Option Link → Identifier
  | none => id
  | some link => { id with declaration := some link }

/-- A parameter with a link, if there is one for it. -/
def Parameter.linkedTo (param : Parameter) : Option Link → Parameter
  | none => param
  | some link => { param with declaration := some link }

/-- The link of a declaring node, given how the declarations are numbered. -/
def Site.link (number : Site → Nat) (site : Site) : Link where
  number := number site
  name := site.declarer.name
  kind := site.declarer.kind
  offset := site.declarer.offset

section Links

variable (number : Site → Nat)

/-- The parameters of a function, behind others of its level. The first of each name is
linked to itself. -/
def Parameter.linked (start : Nat) (level : Level) : List Parameter → List Parameter
  | [] => []
  | param :: rest =>
    param.linkedTo ((level.accept ⟨start, param.declarer⟩).map (Site.link number)) ::
      Parameter.linked (start + 1) (level ++ [⟨start, param.declarer⟩]) rest

mutual

/-- An expression with its names linked to the declarations that they refer to. -/
def Expression.linked (start : Nat) (levels : List Level) : Expression → Expression
  | .number offset value => .number offset value
  | .string offset value => .string offset value
  | .boolean offset value => .boolean offset value
  | .identifier use =>
    .identifier (use.linkedTo ((lexicalSite levels use.name).map (Site.link number)))
  | .array offset elements => .array offset (Expression.linkedAll start levels elements)
  | .member offset object index =>
    .member offset (object.linked start levels)
      (index.linked (start + object.declarers.length) levels)
  | .binary offset left operator right =>
    .binary offset (left.linked start levels) operator
      (right.linked (start + left.declarers.length) levels)
  | .conditional offset test consequent alternate =>
    let second := start + test.declarers.length
    let third := second + consequent.declarers.length
    .conditional offset (test.linked start levels) (consequent.linked second levels)
      (alternate.linked third levels)
  | .arrow offset params result { offset := opening, statements } =>
    .arrow offset (Parameter.linked number start [] params) result
      { offset := opening
        statements := Statement.linkedAll (start + params.length) (Parameter.sites start params)
          levels statements }
  | .call offset callee arguments =>
    .call offset (callee.linked start levels)
      (Expression.linkedAll (start + callee.declarers.length) levels arguments)

/-- Several expressions with their names linked. -/
def Expression.linkedAll (start : Nat) (levels : List Level) : List Expression → List Expression
  | [] => []
  | expression :: rest =>
    expression.linked start levels ::
      Expression.linkedAll (start + expression.declarers.length) levels rest

/-- A statement with its names linked. A constant that is the first of its name in its level
is linked to itself. -/
def Statement.linked (start : Nat) (level : Level) (outer : List Level) : Statement → Statement
  | .constant offset id ascription initial inferred =>
    let site : Site := ⟨start + initial.declarers.length, id.declarer offset⟩
    .constant offset (id.linkedTo ((level.accept site).map (Site.link number))) ascription
      (initial.linked start (level :: outer)) inferred
  | .returning offset none inferred => .returning offset none inferred
  | .returning offset (some argument) inferred =>
    .returning offset (some (argument.linked start (level :: outer))) inferred

/-- Several statements with their names linked. -/
def Statement.linkedAll (start : Nat) (level : Level) (outer : List Level) :
    List Statement → List Statement
  | [] => []
  | statement :: rest =>
    statement.linked start level outer ::
      Statement.linkedAll (start + statement.declarers.length) (level ++ statement.sites start)
        outer rest

end

/-! ## Scopes -/

/-- The names of a level with the numbers of their declarations. -/
def Level.names (level : Level) : Names :=
  (Level.firsts level).map fun site => (site.declarer.name, number site)

mutual

/-- The scopes of the outermost functions in an expression, each with the scopes of the
functions inside it. -/
def Expression.scopes (start : Nat) : Expression → List Scope
  | .number _ _ | .string _ _ | .boolean _ _ | .identifier _ => []
  | .array _ elements => Expression.scopesOf start elements
  | .member _ object index =>
    object.scopes start ++ index.scopes (start + object.declarers.length)
  | .binary _ left _ right =>
    left.scopes start ++ right.scopes (start + left.declarers.length)
  | .conditional _ test consequent alternate =>
    let second := start + test.declarers.length
    let third := second + consequent.declarers.length
    test.scopes start ++ (consequent.scopes second ++ alternate.scopes third)
  | .arrow _ params _ { statements, .. } =>
    let body := start + params.length
    [{ owner := some .arrow
       names := Level.names number
         (Parameter.sites start params ++ Statement.sitesOf body statements)
       children := Statement.scopesOf body statements }]
  | .call _ callee arguments =>
    callee.scopes start ++ Expression.scopesOf (start + callee.declarers.length) arguments

/-- The scopes of the outermost functions in several expressions. -/
def Expression.scopesOf (start : Nat) : List Expression → List Scope
  | [] => []
  | expression :: rest =>
    expression.scopes start ++ Expression.scopesOf (start + expression.declarers.length) rest

/-- The scopes of the outermost functions in a statement. -/
def Statement.scopes (start : Nat) : Statement → List Scope
  | .constant _ _ _ initial _ => initial.scopes start
  | .returning _ none _ => []
  | .returning _ (some argument) _ => argument.scopes start

/-- The scopes of the outermost functions in several statements. -/
def Statement.scopesOf (start : Nat) : List Statement → List Scope
  | [] => []
  | statement :: rest =>
    statement.scopes start ++ Statement.scopesOf (start + statement.declarers.length) rest

end

end Links

/-! ## Programs -/

/-- An event with links in the place of declaring nodes. -/
def ScopeEvent.link (number : Site → Nat) : LexicalEvent → Resolver.Event
  | .used use found => .used use (found.map (Site.link number))
  | .declared declarer given => .declared declarer (given.map (Site.link number))

namespace Program

/-- The nodes that declare names in a program, in the order of the source. -/
def declarers (program : Program) : List Declarer := Statement.declarersOf program.body

/-- The uses and the declaring nodes in a program, in the order of the source. -/
def scoping (program : Program) : List LexicalEvent := Statement.scopingOf 0 [] [] program.body

/-- The declaring nodes that are the first of their names in their levels. -/
def sites (program : Program) : List Site := program.scoping.filterMap ScopeEvent.accepted

/-- The number of a declaration: its position among those that are made. -/
def number (program : Program) (site : Site) : Nat := program.sites.idxOf site

/-- The uses and the declaring nodes in a program with their links. -/
def lexicalEvents (program : Program) : List Resolver.Event :=
  program.scoping.map (ScopeEvent.link program.number)

/-- The program with its names linked to the declarations that they refer to. -/
def linked (program : Program) : Program :=
  { program with body := Statement.linkedAll program.number 0 [] [] program.body }

/-- The scope of the program with the scopes of its functions inside of it. -/
def scope (program : Program) : Scope where
  owner := some .program
  names := Level.names program.number (Statement.sitesOf 0 program.body)
  children := Statement.scopesOf program.number 0 program.body

end Program

end ArrowScript
