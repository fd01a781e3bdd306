import ArrowScript.Artifact
import ArrowScript.Parser.Programs
import ArrowScript.Scope.Resolution
import ArrowScript.Ty.Inference
import ArrowScript.Validation

/-!
# Compilations

A compilation takes a source through all stages: its tokens, its tree, the checks of
its function bodies, the links of its names, and the types of its statements. An
error in one stage never keeps the next one from running, and the diagnostics of all
stages are collected in their order. A source that is not made of tokens is
continued with as an empty one.

A compilation can be stopped after a stage. The check of function bodies can be
replaced; a check that fails ends the compilation with its failure, and what earlier
stages have left is kept.
-/

namespace ArrowScript

/-- The ways in which a compilation can fail as a whole. -/
inductive Failure where
  | located (diagnostic : Diagnostic)
  | internal (error : InternalError)
  deriving DecidableEq, Repr

/-- A check of a whole program. -/
abbrev Check := Program → Except Failure (List Diagnostic)

/-- The check that reports misplaced returns. It never fails. -/
def standardCheck : Check := fun program => .ok program.validate

/-- What the analyses of a tree have found: the tree with their results, their
artifacts in the order of the stages, and their diagnostics. -/
structure Analysis where
  program : Program
  artifacts : List Artifact
  diagnostics : List Diagnostic

/-- Analyses a tree, up to the stage after which to stop. -/
def Program.analyse (program : Program) (stop : Option Stage := none)
    (check : Check := standardCheck) : Except Failure Analysis := do
  let found ← check program
  let validation := Artifact.validation found
  if stop = some .validation then
    return { program, artifacts := [validation], diagnostics := found }
  let resolved := program.resolve
  let resolution := Artifact.resolution resolved.diagnostics resolved.scopes
  let found := found ++ resolved.diagnostics
  if stop = some .resolution then
    return {
      program := resolved.program
      artifacts := [validation, resolution]
      diagnostics := found }
  let (typed, conflicts) := resolved.program.infer
  let found := found ++ conflicts
  return {
    program := typed
    artifacts := [validation, resolution, .typedAst typed found]
    diagnostics := found }

/-- What a compilation leaves: a tree, unless it was stopped before there was one,
and all diagnostics. -/
structure Outcome where
  program : Option Program
  diagnostics : List Diagnostic

/-- A compilation: the artifacts that were kept, and how it ended. -/
structure Compilation where
  artifacts : List Artifact
  result : Except Failure Outcome

/-- Compiles a source, up to the stage after which to stop. -/
def compile (source : String) (stop : Option Stage := none) (check : Check := standardCheck) :
    Compilation :=
  let (tokens, lexical) := match tokenize source with
    | .ok tokens => (tokens, [])
    | .error diagnostic => ([], [diagnostic])
  let kept := [Artifact.tokens tokens]
  if stop = some .tokens then
    { artifacts := kept, result := .ok { program := none, diagnostics := lexical } }
  else
    let (program, syntactic) := parseProgram tokens
    let kept := kept ++ [.ast program]
    let found := lexical ++ syntactic
    if stop = some .ast then
      { artifacts := kept, result := .ok { program := some program, diagnostics := found } }
    else
      match program.analyse stop check with
      | .error failure => { artifacts := kept, result := .error failure }
      | .ok analysis =>
        { artifacts := kept ++ analysis.artifacts
          result := .ok
            { program := some analysis.program, diagnostics := found ++ analysis.diagnostics } }

/-- The typed tree of a source with all diagnostics. -/
def typecheck (source : String) : Program × List Diagnostic :=
  match (compile source).result with
  | .ok { program := some program, diagnostics } => (program, diagnostics)
  | .ok { program := none, diagnostics } => ({ body := [] }, diagnostics)
  | .error _ => ({ body := [] }, [])

end ArrowScript
