import ArrowScript.InternalError
import ArrowScript.Problem
import ArrowScript.Scope

/-!
# Lexical name resolution

Every use of a name is linked to the declaration that lexical scoping gives it: the
first one of that name in the innermost scope that has one. The walk visits the tree
in the order of the source and declares a constant only after its initializer has
been visited, so a declaration is visible exactly from its end on.

A name declared twice in one scope is reported, and the first declaration stands. A
use without a declaration is reported and stays without a link.
-/

namespace ArrowScript

/-- What a walk knows at a place of the tree: the names of the scope it is in and of
the scopes around it, from the inside outwards; the scopes that have been closed in
the current one; and what has been found so far. -/
structure Resolution where
  names : Names := []
  enclosing : List Names := []
  children : List Scope := []
  declarations : Array Declaration := #[]
  diagnostics : List Diagnostic := []

/-- A walk over a part of a tree. -/
abbrev Resolver := StateM Resolution

namespace Resolver

/-- The number of the declaration that a name has at this place. -/
def lookup (name : String) : Resolver (Option Nat) := do
  let resolution ← get
  return (resolution.names :: resolution.enclosing).findSome? (·.lookup name)

/-- Records a problem. -/
def report (problem : Problem) (offset : Int) : Resolver Unit :=
  modify fun resolution =>
    { resolution with diagnostics := resolution.diagnostics ++ [⟨problem, offset⟩] }

/-- Declares a name in the current scope, unless the scope has the name already. -/
def declare (name : String) (kind : DeclarationKind) (offset : Int) : Resolver (Option Link) := do
  let resolution ← get
  if (resolution.names.lookup name).isSome then return none
  let link : Link := { number := resolution.declarations.size, name, kind, offset }
  set { resolution with
    names := resolution.names ++ [(name, link.number)]
    declarations := resolution.declarations.push { link } }
  return some link

/-- Records a use of a declaration. -/
def refer (number : Nat) (offset : Int) : Resolver Unit :=
  modify fun resolution =>
    { resolution with
      declarations := resolution.declarations.modify number fun declaration =>
        { declaration with references := declaration.references ++ [offset] } }

/-- Links a use of a name to its declaration. -/
def resolveIdentifier (identifier : Identifier) : Resolver Identifier := do
  match ← lookup identifier.name with
  | none =>
    report (.undeclaredReference identifier.name) identifier.offset
    return identifier
  | some number =>
    refer number identifier.offset
    match (← get).declarations[number]? with
    | some declaration => return { identifier with declaration := some declaration.link }
    | none => return identifier

/-- Declares the parameters of a function. -/
def declareParameters : List Parameter → Resolver (List Parameter)
  | [] => return []
  | param :: rest => do
    let declared ← match ← declare param.name .parameter param.offset with
      | none => do
        report (.duplicateParameter param.name) param.offset
        pure param
      | some link => pure { param with declaration := some link }
    return declared :: (← declareParameters rest)

/-- Walks over the parts of a function in a scope of their own. The scope is closed
behind them, and the walk goes on in the scope around it. -/
def inNewScope {α : Type} (owner : NodeKind) (walk : Resolver α) : Resolver α := do
  let outer ← get
  set { outer with names := [], enclosing := outer.names :: outer.enclosing, children := [] }
  let result ← walk
  let inner ← get
  let closed : Scope := { owner := some owner, names := inner.names, children := inner.children }
  set { inner with
    names := outer.names
    enclosing := outer.enclosing
    children := outer.children ++ [closed] }
  return result

mutual

/-- Links the names in an expression. -/
def resolveExpression : Expression → Resolver Expression
  | .number offset value => return .number offset value
  | .string offset value => return .string offset value
  | .boolean offset value => return .boolean offset value
  | .identifier identifier => return .identifier (← resolveIdentifier identifier)
  | .array offset elements => return .array offset (← resolveExpressions elements)
  | .member offset object index => do
    let object ← resolveExpression object
    return .member offset object (← resolveExpression index)
  | .binary offset left operator right => do
    let left ← resolveExpression left
    return .binary offset left operator (← resolveExpression right)
  | .conditional offset test consequent alternate => do
    let test ← resolveExpression test
    let consequent ← resolveExpression consequent
    return .conditional offset test consequent (← resolveExpression alternate)
  | .arrow offset params result body => inNewScope .arrow do
    let params ← declareParameters params
    return .arrow offset params result (← resolveBlock body)
  | .call offset callee arguments => do
    let callee ← resolveExpression callee
    return .call offset callee (← resolveExpressions arguments)

/-- Links the names in a statement. The name of a constant is declared last. -/
def resolveStatement : Statement → Resolver Statement
  | .constant offset id ascription initial inferred => do
    let initial ← resolveExpression initial
    match ← declare id.name .constant offset with
    | none =>
      report (.duplicateDeclaration id.name) id.offset
      return .constant offset id ascription initial inferred
    | some link =>
      return .constant offset { id with declaration := some link } ascription initial inferred
  | .returning offset none inferred => return .returning offset none inferred
  | .returning offset (some argument) inferred =>
    return .returning offset (some (← resolveExpression argument)) inferred

/-- Links the names in a block, which opens no scope of its own. -/
def resolveBlock : Block → Resolver Block
  | { offset, statements } => return { offset, statements := ← resolveStatements statements }

/-- Links the names in several expressions. -/
def resolveExpressions : List Expression → Resolver (List Expression)
  | [] => return []
  | expression :: rest => do
    let expression ← resolveExpression expression
    return expression :: (← resolveExpressions rest)

/-- Links the names in several statements. -/
def resolveStatements : List Statement → Resolver (List Statement)
  | [] => return []
  | statement :: rest => do
    let statement ← resolveStatement statement
    return statement :: (← resolveStatements rest)

end

/-- The walk over a node, for the kinds of nodes that stand in a scope. -/
def resolveNode : Node → Except InternalError (Resolver Unit)
  | .expression root => return discard (resolveExpression root)
  | .statement root => return discard (resolveStatement root)
  | .block root => return discard (resolveBlock root)
  | other => throw (.noResolutionRule other.kind)

end Resolver

/-- The outcome of resolving the names of a program. -/
structure ResolvedProgram where
  program : Program
  scopes : ScopeTree
  diagnostics : List Diagnostic

/-- Resolves the names of a program. -/
def Program.resolve (program : Program) : ResolvedProgram :=
  let (body, resolution) := (Resolver.resolveStatements program.body).run {}
  { program := { program with body }
    scopes :=
      { root :=
          { owner := some .program, names := resolution.names, children := resolution.children }
        declarations := resolution.declarations }
    diagnostics := resolution.diagnostics }

namespace ScopeTree

/-- A tree of one scope that no node has opened. -/
def empty : ScopeTree := { root := {} }

/-- Walks in the scope at the end of a path of child indices, below the scopes given
from the inside outwards. Answers with the result of the walk, the scope after it,
and what the walk has found. -/
def walkBelow {α : Type} (walk : Resolver α) (declarations : Array Declaration) :
    (enclosing : List Names) → Scope → (path : List Nat) → Option (α × Scope × Resolution)
  | enclosing, scope, [] =>
    let (result, resolution) := walk.run
      { names := scope.names, enclosing, children := scope.children, declarations }
    some (result,
      { scope with names := resolution.names, children := resolution.children }, resolution)
  | enclosing, scope, index :: path => do
    let child ← scope.children[index]?
    let (result, child, resolution) ←
      walkBelow walk declarations (scope.names :: enclosing) child path
    return (result, { scope with children := scope.children.set index child }, resolution)

/-- Walks in the scope at the end of a path. Answers with the result, the tree after
the walk, and the problems that the walk has met. -/
def walkAt {α : Type} (tree : ScopeTree) (path : List Nat) (walk : Resolver α) :
    Option (α × ScopeTree × List Diagnostic) := do
  let (result, root, resolution) ← walkBelow walk tree.declarations [] tree.root path
  return (result, { root, declarations := resolution.declarations }, resolution.diagnostics)

/-- The scope at the end of a path. -/
def scopeAt (tree : ScopeTree) (path : List Nat) : Option Scope :=
  path.foldlM (fun scope index => scope.children[index]?) tree.root

/-- Opens an empty scope inside another and answers with its path. -/
def open? (tree : ScopeTree) (path : List Nat) : Option (List Nat × ScopeTree) := do
  let (index, opened, _) ← tree.walkAt path do
    let resolution ← get
    let opened : Scope := {}
    set { resolution with children := resolution.children ++ [opened] }
    return resolution.children.length
  return (path ++ [index], opened)

/-- The declaration that a name has in a scope. -/
def lookupAt (tree : ScopeTree) (path : List Nat) (name : String) : Option Declaration := do
  let (number, _, _) ← tree.walkAt path (Resolver.lookup name)
  tree.declarations[← number]?

end ScopeTree

end ArrowScript
