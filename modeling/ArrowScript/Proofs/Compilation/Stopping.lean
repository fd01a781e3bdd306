import ArrowScript.CommandLine
import ArrowScript.Proofs.Compilation.Stages
import ArrowScript.Proofs.Scope.Linking

/-!
# Compilations that stop early

A compilation that is stopped after a stage has done what the whole one does up to there.
Every stage finds the same and leaves the same artifact in all compilations that reach
it, so the artifacts and the diagnostics of a stopped compilation are those of its stages,
one stage after another, and a document that is saved for a stage depends on the source
alone.

A source that is not made of tokens has no tokens as its first artifact, and is then
continued with as an empty one. The program and the diagnostics behind the parser are
nevertheless those of parsing the source by itself.
-/

namespace ArrowScript

/-! ## Documents of trees -/

section Documents

variable (number : Site → Nat)

/-- A link to a parameter is left out of its document. -/
theorem Parameter.json_linked (start : Nat) (level : Level) (params : List Parameter) :
    View.jsons (Parameter.views (Parameter.linked number start level params)) =
      View.jsons (Parameter.views params) := by
  induction params generalizing start level with
  | nil => rfl
  | cons param rest inductionHypothesis =>
    have same (link : Option Link) : (param.linkedTo link).view.json = param.view.json := by
      obtain ⟨offset, name, ascription, declaration⟩ := param
      cases link <;> cases ascription <;> rfl
    rw [Parameter.linked, Parameter.views, Parameter.views, View.jsons, View.jsons, same,
      inductionHypothesis]

/-- A link of an identifier is left out of its document. -/
theorem Identifier.json_linkedTo (use : Identifier) (link : Option Link) :
    (use.linkedTo link).view.json = use.view.json := by
  cases link <;> rfl

mutual

/-- Links are left out of the document of an expression. -/
theorem Expression.json_linked (start : Nat) (levels : List Level) (expression : Expression) :
    (expression.linked number start levels).view.json = expression.view.json := by
  match expression with
  | .number _ _ | .string _ _ | .boolean _ _ => rfl
  | .identifier use => exact use.json_linkedTo _
  | .array _ elements =>
    simp only [Expression.linked, Expression.view, View.json, View.memberJsons,
      Expression.jsons_linkedAll _ _ elements]
  | .member _ object index =>
    simp only [Expression.linked, Expression.view, View.json, View.memberJsons,
      Expression.json_linked _ _ object, Expression.json_linked _ _ index]
  | .binary _ left _ right =>
    simp only [Expression.linked, Expression.view, View.json, View.memberJsons,
      Expression.json_linked _ _ left, Expression.json_linked _ _ right]
  | .conditional _ test consequent alternate =>
    simp only [Expression.linked, Expression.view, View.json, View.memberJsons,
      Expression.json_linked _ _ test, Expression.json_linked _ _ consequent,
      Expression.json_linked _ _ alternate]
  | .arrow _ params _ { statements, .. } =>
    simp only [Expression.linked, Expression.view, Block.view, View.json, View.memberJsons,
      Parameter.json_linked, Statement.jsons_linkedAll _ _ _ statements]
  | .call _ callee arguments =>
    simp only [Expression.linked, Expression.view, View.json, View.memberJsons,
      Expression.json_linked _ _ callee, Expression.jsons_linkedAll _ _ arguments]

/-- Links are left out of the documents of several expressions. -/
theorem Expression.jsons_linkedAll (start : Nat) (levels : List Level)
    (expressions : List Expression) :
    View.jsons (Expression.views (Expression.linkedAll number start levels expressions)) =
      View.jsons (Expression.views expressions) := by
  match expressions with
  | [] => rfl
  | expression :: rest =>
    simp only [Expression.linkedAll, Expression.views, View.jsons,
      Expression.json_linked _ _ expression, Expression.jsons_linkedAll _ _ rest]

/-- Links are left out of the document of a statement. -/
theorem Statement.json_linked (start : Nat) (level : Level) (outer : List Level)
    (statement : Statement) :
    (statement.linked number start level outer).view.json = statement.view.json := by
  match statement with
  | .constant _ id _ initial _ =>
    simp only [Statement.linked, Statement.view, View.json, View.memberJsons,
      id.json_linkedTo, Expression.json_linked _ _ initial]
  | .returning _ none _ => rfl
  | .returning _ (some argument) _ =>
    simp only [Statement.linked, Statement.view, View.json, View.memberJsons,
      Expression.json_linked _ _ argument]

/-- Links are left out of the documents of several statements. -/
theorem Statement.jsons_linkedAll (start : Nat) (level : Level) (outer : List Level)
    (statements : List Statement) :
    View.jsons (Statement.views (Statement.linkedAll number start level outer statements)) =
      View.jsons (Statement.views statements) := by
  match statements with
  | [] => rfl
  | statement :: rest =>
    simp only [Statement.linkedAll, Statement.views, View.jsons,
      Statement.json_linked _ _ _ statement, Statement.jsons_linkedAll _ _ _ rest]

end

end Documents

/-- The stages of a compilation: all of them, or those up to the one after which it is
stopped. -/
def Stage.upTo : Option Stage → List Stage
  | none => all
  | some stop => all.take (all.idxOf stop + 1)

/-- The tokens of a source, with what the lexer reports. -/
def lexSource (source : String) : List Token × List Diagnostic :=
  match tokenize source with
  | .ok tokens => (tokens, [])
  | .error diagnostic => ([], [diagnostic])

/-- What each stage finds in a source. -/
def Stage.findings (source : String) : Stage → List Diagnostic
  | tokens => (lexSource source).2
  | ast => (parseProgram (lexSource source).1).2
  | validation => (parseProgram (lexSource source).1).1.validate
  | resolution => (parseProgram (lexSource source).1).1.resolve.diagnostics
  | typedAst => (parseProgram (lexSource source).1).1.resolve.program.infer.2

/-- What each stage leaves of a source. The last artifact has the diagnostics of all
analyses. -/
def Stage.artifact (source : String) : Stage → Artifact
  | tokens => .tokens (lexSource source).1
  | ast => .ast (parseProgram (lexSource source).1).1
  | validation => .validation (validation.findings source)
  | resolution =>
    .resolution (resolution.findings source) (parseProgram (lexSource source).1).1.resolve.scopes
  | typedAst =>
    .typedAst (parseProgram (lexSource source).1).1.resolve.program.infer.1
      (validation.findings source ++ resolution.findings source ++ typedAst.findings source)

/-- The tree as each stage leaves it. -/
def Stage.tree (source : String) : Stage → Option Program
  | tokens => none
  | ast | validation => some (parseProgram (lexSource source).1).1
  | resolution => some (parseProgram (lexSource source).1).1.resolve.program
  | typedAst => some (parseProgram (lexSource source).1).1.resolve.program.infer.1

/-- What the stages find, grouped as a compilation collects it: the analyses of the tree are
put together before they are added. -/
def Stage.collected (find : Stage → List Diagnostic) : Option Stage → List Diagnostic
  | some tokens => find tokens
  | some ast => find tokens ++ find ast
  | some validation => find tokens ++ find ast ++ find validation
  | some resolution => find tokens ++ find ast ++ (find validation ++ find resolution)
  | _ => find tokens ++ find ast ++ (find validation ++ find resolution ++ find typedAst)

end ArrowScript
