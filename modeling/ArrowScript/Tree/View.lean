import ArrowScript.Tree

/-!
# A uniform view of the tree

Tools that treat all nodes alike, such as the writer of artifacts and the structural
comparison, look at a tree through `View`: every node has a kind, an offset, what the
analyses have found out about it, and named fields in a fixed order. A field holds a
node, a list, a plain value, or nothing.
-/

namespace ArrowScript

/-- The kinds of nodes. A `plain` node has an offset and no fields. -/
inductive NodeKind where
  | namedAscription | arrayAscription | functionAscription
  | numberLiteral | stringLiteral | booleanLiteral | identifier | arrayLiteral
  | member | binary | conditional | parameter | arrow | call
  | constant | returning | block | program
  | plain
  deriving DecidableEq, Repr, Inhabited

/-- The name under which a kind of node is published. -/
def NodeKind.name : NodeKind → String
  | namedAscription => "NamedTypeAnnotation"
  | arrayAscription => "ArrayTypeAnnotation"
  | functionAscription => "FunctionTypeAnnotation"
  | numberLiteral => "NumericLiteral"
  | stringLiteral => "StringLiteral"
  | booleanLiteral => "BooleanLiteral"
  | identifier => "Identifier"
  | arrayLiteral => "ArrayLiteral"
  | member => "MemberExpression"
  | binary => "BinaryExpression"
  | conditional => "ConditionalExpression"
  | parameter => "Parameter"
  | arrow => "ArrowFunctionExpression"
  | call => "CallExpression"
  | constant => "ConstDeclaration"
  | returning => "ReturnStatement"
  | block => "BlockStatement"
  | program => "Program"
  | plain => "ASTNode"

/-- Tells whether nodes of a kind are given a type by inference. -/
def NodeKind.isTyped : NodeKind → Bool
  | constant | returning => true
  | _ => false

/-- The kind of node that makes a declaration. -/
def DeclarationKind.node : DeclarationKind → NodeKind
  | .constant => .constant
  | .parameter => .parameter

/-- What analyses have found out about a node: the type of a statement, and the
declaration of an identifier or a parameter. -/
structure Findings where
  inferred : Option Ty := none
  declaration : Option Link := none
  deriving Repr, Inhabited

/-- A tree as a uniform structure. -/
inductive View where
  | node (kind : NodeKind) (offset : Int) (findings : Findings) (fields : List (String × View))
  | list (items : List View)
  | text (value : String)
  | number (value : Numeral)
  | boolean (value : Bool)
  | absent
  deriving Repr, Inhabited

/-- The view of an identifier. -/
def Identifier.view (identifier : Identifier) : View :=
  .node .identifier identifier.offset { declaration := identifier.declaration }
    [("name", .text identifier.name)]

mutual

/-- The view of an ascription. -/
def Ascription.view : Ascription → View
  | .named offset name => .node .namedAscription offset {} [("name", .text name)]
  | .array offset element =>
    .node .arrayAscription offset {} [("element_type", element.view)]
  | .function offset params result =>
    .node .functionAscription offset {}
      [("params", .list (Parameter.views params)), ("return_type", result.view)]

/-- The view of a parameter. -/
def Parameter.view : Parameter → View
  | { offset, name, ascription := none, declaration } =>
    .node .parameter offset { declaration }
      [("name", .text name), ("type_annotation", .absent)]
  | { offset, name, ascription := some ascription, declaration } =>
    .node .parameter offset { declaration }
      [("name", .text name), ("type_annotation", ascription.view)]

/-- The views of several parameters. -/
def Parameter.views : List Parameter → List View
  | [] => []
  | param :: rest => param.view :: Parameter.views rest

end

/-- The view of an ascription that may be missing. -/
def Ascription.viewOf : Option Ascription → View
  | some ascription => ascription.view
  | none => .absent

mutual

/-- The view of an expression. -/
def Expression.view : Expression → View
  | .number offset value => .node .numberLiteral offset {} [("value", .number value)]
  | .string offset value => .node .stringLiteral offset {} [("value", .text value)]
  | .boolean offset value => .node .booleanLiteral offset {} [("value", .boolean value)]
  | .identifier identifier => identifier.view
  | .array offset elements =>
    .node .arrayLiteral offset {} [("elements", .list (Expression.views elements))]
  | .member offset object index =>
    .node .member offset {} [("object", object.view), ("index", index.view)]
  | .binary offset left operator right =>
    .node .binary offset {}
      [("left", left.view), ("operator", .text operator), ("right", right.view)]
  | .conditional offset test consequent alternate =>
    .node .conditional offset {}
      [("test", test.view), ("consequent", consequent.view), ("alternate", alternate.view)]
  | .arrow offset params result body =>
    .node .arrow offset {}
      [("params", .list (Parameter.views params)), ("return_type", Ascription.viewOf result),
        ("body", body.view)]
  | .call offset callee arguments =>
    .node .call offset {}
      [("callee", callee.view), ("arguments", .list (Expression.views arguments))]

/-- The view of a statement. -/
def Statement.view : Statement → View
  | .constant offset id ascription initial inferred =>
    .node .constant offset { inferred }
      [("id", id.view), ("type_annotation", Ascription.viewOf ascription), ("init", initial.view)]
  | .returning offset none inferred =>
    .node .returning offset { inferred } [("argument", .absent)]
  | .returning offset (some argument) inferred =>
    .node .returning offset { inferred } [("argument", argument.view)]

/-- The view of a block. -/
def Block.view : Block → View
  | { offset, statements } =>
    .node .block offset {} [("statements", .list (Statement.views statements))]

/-- The views of several expressions. -/
def Expression.views : List Expression → List View
  | [] => []
  | expression :: rest => expression.view :: Expression.views rest

/-- The views of several statements. -/
def Statement.views : List Statement → List View
  | [] => []
  | statement :: rest => statement.view :: Statement.views rest

end

/-- The view of a program. -/
def Program.view (program : Program) : View :=
  .node .program program.offset {} [("body", .list (Statement.views program.body))]

/-- A node of any kind. -/
inductive Node where
  | ascription (ascription : Ascription)
  | parameter (parameter : Parameter)
  | expression (expression : Expression)
  | statement (statement : Statement)
  | block (block : Block)
  | program (program : Program)
  | plain (offset : Int)

/-- The view of a node. -/
def Node.view : Node → View
  | .ascription root => root.view
  | .parameter root => root.view
  | .expression root => root.view
  | .statement root => root.view
  | .block root => root.view
  | .program root => root.view
  | .plain offset => .node .plain offset {} []

namespace View

/-- The kind of the root, if it is a node. -/
def kind? : View → Option NodeKind
  | node kind _ _ _ => some kind
  | _ => none

/-- The nodes that a field holds directly. -/
def nodes : View → List View
  | view@(node _ _ _ _) => [view]
  | list items => items.filter (·.kind?.isSome)
  | _ => []

/-- The direct children of a node, in the order of its fields. -/
def children : View → List View
  | node _ _ _ fields => fields.flatMap fun field => field.2.nodes
  | _ => []

end View

/-- The kind of a node. -/
def Node.kind (node : Node) : NodeKind := node.view.kind?.getD .plain

/-- The kinds and offsets of the direct children of a node. -/
def Node.children (node : Node) : List (NodeKind × Int) :=
  node.view.children.filterMap fun
    | .node kind offset _ _ => some (kind, offset)
    | _ => none

end ArrowScript
