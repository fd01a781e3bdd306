import ArrowScript.Json
import ArrowScript.Problem
import ArrowScript.Scope
import ArrowScript.Token
import ArrowScript.Tree.View

/-!
# Artifacts of the stages

Every stage of a compilation leaves an artifact, which can be written as a JSON
document. Nodes are written without their kind: the offset comes first, then the
inferred type of the statements, then the fields. Links are left out. Declarations are
written with the number of their uses.
-/

namespace ArrowScript

/-- The stages of a compilation, in their order. -/
inductive Stage where
  | tokens | ast | validation | resolution | typedAst
  deriving DecidableEq, Repr, Inhabited

namespace Stage

/-- All stages in their order. -/
def all : List Stage := [tokens, ast, validation, resolution, typedAst]

/-- The name of a stage, which is also part of the names of its files. -/
def name : Stage → String
  | tokens => "tokens"
  | ast => "ast"
  | validation => "validation"
  | resolution => "resolution"
  | typedAst => "typed_ast"

/-- The stage with the given name. -/
def ofName? (name : String) : Option Stage := all.find? (·.name == name)

end Stage

/-- A token as a document. -/
def Token.json (token : Token) : Json :=
  .object [("type", .string token.kind.name), ("value", token.value.json),
    ("offset", .int token.offset)]

/-- A diagnostic as a document. -/
def Diagnostic.json (diagnostic : Diagnostic) : Json :=
  .object [("code", .string diagnostic.code.name), ("message", .string diagnostic.message),
    ("offset", .int diagnostic.offset)]

/-- The type of a statement as a member of its document. -/
def typeMember (kind : NodeKind) (inferred : Option Ty) : List (String × Json) :=
  if kind.isTyped then
    [("inferred_type", match inferred with
      | some type => .string type.text
      | none => .null)]
  else []

mutual

/-- A tree as a document. -/
def View.json : View → Json
  | .node kind offset findings fields =>
    .object (("offset", .int offset) ::
      (typeMember kind findings.inferred ++ View.memberJsons fields))
  | .list items => .array (View.jsons items)
  | .text value => .string value
  | .number value => .number value
  | .boolean value => .boolean value
  | .absent => .null

/-- Several trees as documents. -/
def View.jsons : List View → List Json
  | [] => []
  | view :: rest => view.json :: View.jsons rest

/-- The fields of a node as members of its document. -/
def View.memberJsons : List (String × View) → List (String × Json)
  | [] => []
  | (name, view) :: rest => (name, view.json) :: View.memberJsons rest

end

/-- A program as a document. -/
def Program.json (program : Program) : Json := program.view.json

/-- The names of a scope as members of an object. -/
def namesJson (declarations : Array Declaration) (names : Names) : List (String × Json) :=
  names.filterMap fun (name, number) =>
    declarations[number]?.map fun declaration =>
      (name, .object [("kind", .string declaration.link.kind.node.name),
        ("references", .int declaration.references.length)])

mutual

/-- A scope and the scopes in it as a document. -/
def Scope.json (declarations : Array Declaration) : Scope → Json
  | { owner, names, children } =>
    .object [("node", match owner with
        | some kind => .string kind.name
        | none => .null),
      ("declarations", .object (namesJson declarations names)),
      ("children", .array (Scope.jsons declarations children))]

/-- Several scopes as documents. -/
def Scope.jsons (declarations : Array Declaration) : List Scope → List Json
  | [] => []
  | scope :: rest => scope.json declarations :: Scope.jsons declarations rest

end

/-- A tree of scopes as a document. -/
def ScopeTree.json (tree : ScopeTree) : Json := tree.root.json tree.declarations

/-- What a stage leaves. -/
inductive Artifact where
  | tokens (tokens : List Token)
  | ast (program : Program)
  | validation (diagnostics : List Diagnostic)
  | resolution (diagnostics : List Diagnostic) (scopes : ScopeTree)
  | typedAst (program : Program) (diagnostics : List Diagnostic)

namespace Artifact

/-- The stage that has left an artifact. -/
def stage : Artifact → Stage
  | tokens _ => .tokens
  | ast _ => .ast
  | validation _ => .validation
  | resolution _ _ => .resolution
  | typedAst _ _ => .typedAst

/-- Diagnostics as a document. -/
def diagnosticsJson (diagnostics : List Diagnostic) : Json := .array (diagnostics.map (·.json))

/-- An artifact as a document. -/
def json : Artifact → Json
  | .tokens stream => .array (stream.map (·.json))
  | .ast program => program.json
  | .validation diagnostics => diagnosticsJson diagnostics
  | .resolution diagnostics scopes =>
    .object [("diagnostics", diagnosticsJson diagnostics), ("scope", scopes.json)]
  | .typedAst program diagnostics =>
    .object [("program", program.json), ("diagnostics", diagnosticsJson diagnostics)]

end Artifact

end ArrowScript
