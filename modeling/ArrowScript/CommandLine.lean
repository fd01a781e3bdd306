import ArrowScript.CommandLine.Arguments
import ArrowScript.Compilation
import ArrowScript.Disk
import ArrowScript.Position
import ArrowScript.Text.Split

/-!
# The command

The command type-checks a source and reports what it has found: all diagnostics with
their lines and columns, or the types of the constants at the top level. On request
it stops after a stage and writes the artifact of that stage.

What the command does is a list of actions, each of which prints a line, reports one
on the error stream, or saves an artifact. `run` performs the actions on a disk.
-/

namespace ArrowScript.CommandLine

/-- One step of the command. -/
inductive Action where
  | print (line : String)
  | complain (line : String)
  | save (artifact path text : String)
  deriving DecidableEq, Repr

/-- The line that announces that an artifact is saved. -/
def savingLine (artifact path : String) : String :=
  s!"--- Saving artifact '{artifact}' to {path} ---"

/-- The line that reports that an artifact could not be saved. -/
def notSavedLine (artifact path : String) (refusal : Refusal) : String :=
  let reason := refusal.message path
  s!"Error: Could not save artifact '{artifact}': {reason}"

/-! ## Artifacts on disk -/

/-- The path of the artifact of a stage: beside the source file, or in the working
directory for a source without a file. -/
def artifactPath (workingDirectory : String) (file : Option String) (stage : String) : String :=
  match file with
  | none | some "" => s!"stdin_output.{stage}.json"
  | some path => Path.withoutExtension (Path.absolute workingDirectory path) ++ s!".{stage}.json"

/-- The actions that save the kept artifacts of the wanted stages, in their order. -/
def saves (workingDirectory : String) (file : Option String) (wanted : List Stage)
    (artifacts : List Artifact) : List Action :=
  (artifacts.filter fun artifact => wanted.contains artifact.stage).map fun artifact =>
    let name := artifact.stage.name
    .save name (artifactPath workingDirectory file name) artifact.json.text

/-- A compilation that saves the artifacts of the wanted stages beside a file. No path of
a file has a NUL character in it, so that an attempt to save there makes the compilation
fail. -/
def whileSaving (file : Option String) (wanted : List Stage) (compilation : Compilation) :
    Compilation :=
  let attempted := compilation.artifacts.any fun artifact => wanted.contains artifact.stage
  if (file.getD "").toList.contains '\x00' && attempted then
    { artifacts := [], result := .error (.internal (.unexpected "embedded null byte")) }
  else compilation

/-! ## Reports -/

/-- The colours of the terminal. -/
inductive Colour where
  | red | green | cyan
  deriving DecidableEq, Repr

/-- The sequence that switches a colour on. -/
def Colour.sequence : Colour → String
  | red => "\x1b[91m"
  | green => "\x1b[92m"
  | cyan => "\x1b[96m"

/-- A text in a colour, if colours are wanted. -/
def paint (enabled : Bool) (colour : Colour) (text : String) : String :=
  if enabled then colour.sequence ++ text ++ "\x1b[0m" else text

/-- A diagnostic with its line and column. -/
def diagnosticLine (source : String) (diagnostic : Diagnostic) : String :=
  let (line, column) := lineColumn source diagnostic.offset
  s!"Error (Line: {line}, Column: {column}): {diagnostic.message}"

/-- The types of the constants at the top level, one to a line. -/
def constantLines (program : Program) : List String :=
  program.body.filterMap fun
    | .constant _ id _ _ inferred =>
      let type := (inferred.map (·.text)).getD "None"
      some s!"{id.name}: {type}"
    | .returning _ _ _ => none

/-- The name of the source in reports. -/
def displayName (options : Options) : String :=
  match options.inputFile with
  | none | some "" => "stdin"
  | some path => path

/-- The line with which a compilation begins. -/
def openingLine (options : Options) : String := s!"--- Compiling {displayName options} ---"

/-- The line with which a compilation ends, given its duration in seconds. -/
def closingLine (options : Options) (duration : String) : String :=
  paint options.color .cyan s!"\n--- Total Execution Time: {duration} seconds ---"

/-- What is left to do, and the exit code for the caller. -/
structure Script where
  actions : List Action
  exitCode : Nat
  deriving DecidableEq, Repr

/-- Reports that the source could not be found. -/
def notFound (options : Options) : Script :=
  { actions := [.complain (paint options.color .red
      s!"ERROR: Script file '{displayName options}' not found.")]
    exitCode := 1 }

/-- Reports diagnostics. -/
def diagnosticActions (options : Options) (source : String) (diagnostics : List Diagnostic) :
    List Action :=
  .complain (paint options.color .red s!"\n--- {diagnostics.length} ERROR(S) FOUND ---") ::
    diagnostics.map fun diagnostic =>
      .complain (paint options.color .red (diagnosticLine source diagnostic))

/-- Reports success. -/
def successActions (options : Options) (program : Option Program) : List Action :=
  match options.stage with
  | some (choice, stage) =>
    [.print (paint options.color .green
      s!"\n--- Compilation to stage '{choice} ({stageDescription stage})' successful ---")]
  | none =>
    .print (paint options.color .green "\n--- Type Check Successful ---") ::
      ((program.map constantLines).getD []).map .print

/-- Reports that a compilation has failed as a whole. -/
def failureActions (options : Options) : Failure → List Action
  | .located diagnostic =>
    let message := locatedMessage (some diagnostic.offset) diagnostic.message
    [.complain (paint options.color .red s!"\n--- COMPILATION ERROR ---\n{message}")]
  | .internal error =>
    [.complain (paint options.color .red "\n--- UNEXPECTED COMPILER ERROR ---"),
      .complain "This may be a bug in the compiler. Please report it.",
      .complain s!"InternalCompilerError: {error.message}"]

/-- Compiles a source and reports the result. -/
def script (options : Options) (workingDirectory source : String)
    (check : Check := standardCheck) : Script :=
  let stage := options.stage.map (·.2)
  let compilation := whileSaving options.inputFile stage.toList (compile source stage check)
  let saved := saves workingDirectory options.inputFile stage.toList compilation.artifacts
  match compilation.result with
  | .error failure => { actions := saved ++ failureActions options failure, exitCode := 1 }
  | .ok { program, diagnostics } =>
    if diagnostics.isEmpty then
      { actions := saved ++ successActions options program, exitCode := 0 }
    else { actions := saved ++ diagnosticActions options source diagnostics, exitCode := 1 }

/-! ## Runs -/

/-- What the command prints on its two streams, and its exit code. -/
structure Report where
  exitCode : Nat
  output : String := ""
  errors : String := ""
  deriving DecidableEq, Repr

/-- The report on arguments that ask for no compilation. -/
def Stop.report : Stop → Report
  | help => { exitCode := 0, output := CommandLine.help }
  | wrong error => { exitCode := 2, errors := usage ++ s!"asc: error: {error.message}\n" }

/-- The options of a run. Without an input file, the source must come from a pipe and
not from a terminal. -/
def start (terminal : Bool) (arguments : List String) : Except Stop Options := do
  let options ← readArguments arguments
  if options.inputFile.isNone && terminal then throw (.wrong .inputRequired)
  return options

/-- Everything that a run depends on besides its arguments. -/
structure Surroundings where
  workingDirectory : String
  disk : Disk := {}
  standardInput : String := ""
  terminal : Bool := false
  duration : String := "0.0000"

/-- The state of a run: what has been printed, and the disk. -/
structure Progress where
  output : String := ""
  errors : String := ""
  disk : Disk
  deriving DecidableEq, Repr

/-- Prints a line. -/
def Progress.printed (progress : Progress) (line : String) : Progress :=
  { progress with output := progress.output ++ line ++ "\n" }

/-- Performs one action. -/
def Action.perform (workingDirectory : String) (progress : Progress) : Action → Progress
  | print line => progress.printed line
  | complain line => { progress with errors := progress.errors ++ line ++ "\n" }
  | save artifact path text =>
    let progress := progress.printed (savingLine artifact path)
    match progress.disk.write (Path.absolute workingDirectory path) text with
    | .ok disk => { progress with disk }
    | .error refusal => progress.printed (notSavedLine artifact path refusal)

/-- Performs actions one after the other. -/
def performAll (workingDirectory : String) (actions : List Action) (progress : Progress) :
    Progress :=
  actions.foldl (Action.perform workingDirectory) progress

/-- The source that the options name, read with line feeds as its only line ends. -/
def Surroundings.source? (surroundings : Surroundings) (options : Options) : Option String :=
  let text := match options.inputFile with
    | none => some surroundings.standardInput
    | some path => surroundings.disk.read? (Path.absolute surroundings.workingDirectory path)
  text.map fun text => String.ofList (Text.unifyLineEnds text.toList)

/-- Runs the command, and gives its report and the disk that it leaves. -/
def run (surroundings : Surroundings) (arguments : List String)
    (check : Check := standardCheck) : Report × Disk :=
  match start surroundings.terminal arguments with
  | .error stop => (stop.report, surroundings.disk)
  | .ok options =>
    let { workingDirectory, disk, duration, .. } := surroundings
    let { actions, exitCode } := match surroundings.source? options with
      | some source => script options workingDirectory source check
      | none => notFound options
    let actions :=
      .print (openingLine options) :: actions ++ [.print (closingLine options duration)]
    let { output, errors, disk } := performAll workingDirectory actions { disk }
    ({ exitCode, output, errors }, disk)

end ArrowScript.CommandLine
