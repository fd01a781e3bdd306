import ArrowScript.Artifact
import ArrowScript.Text.DecimalDigits
import ArrowScript.Text.Quoted

/-!
# Command line arguments

The command takes an input file and three options. An option may be written with its
short or its long name, and a long name may be cut short as long as one option
remains that begins so. The value of an option stands in the next argument, or in
the same one: after an equals sign, or directly behind a short name. Short options
without a value may be written together, also with an equals sign after the first of
them. All options of an argument are read before any of them takes effect.

An argument that is no option is the input file, if none has been given yet. After a
double dash no argument is an option. Numbers with a minus sign, a single dash,
arguments with a blank in them and empty ones are no options either, unless they
name one.
-/

namespace ArrowScript.CommandLine

/-- The options of the command. -/
inductive Switch where
  | help | compile | noColor
  deriving DecidableEq, Repr

/-- The spellings of the options, in the order in which they are listed. -/
def spellings : List (String × Switch) :=
  [("-h", .help), ("--help", .help), ("-c", .compile), ("--compile", .compile),
    ("--no-color", .noColor)]

/-- The name of an option in a report. -/
def Switch.title : Switch → String
  | help => "-h/--help"
  | compile => "-c/--compile"
  | noColor => "--no-color"

/-- Tells whether an option needs a value. -/
def Switch.takesValue : Switch → Bool
  | compile => true
  | help | noColor => false

/-- The stages with the names under which the command knows them. -/
def stageChoices : List (String × Stage) :=
  [("1", .tokens), ("2", .ast), ("3a", .validation), ("3b", .resolution), ("3", .typedAst)]

/-- The description of a stage. -/
def stageDescription : Stage → String
  | .tokens => "Token Stream"
  | .ast => "Abstract Syntax Tree"
  | .validation => "Structural Validation Diagnostics"
  | .resolution => "Scope Tree (Name Resolution)"
  | .typedAst => "Typed Abstract Syntax Tree"

/-- The ways in which the arguments can be wrong. -/
inductive UsageError where
  | invalidChoice (value : String)
  | expectedValue (switch : Switch)
  | ignoredValue (switch : Switch) (value : String)
  | ambiguous (argument : String) (candidates : List String)
  | unrecognized (arguments : List String)
  | inputRequired
  deriving DecidableEq, Repr

/-- The text that reports a wrong argument. -/
def UsageError.message : UsageError → String
  | invalidChoice value =>
    let choices := ", ".intercalate (stageChoices.map fun choice => Text.quoted choice.1)
    s!"argument {Switch.compile.title}: invalid choice: {Text.quoted value} (choose from {choices})"
  | expectedValue switch => s!"argument {switch.title}: expected one argument"
  | ignoredValue switch value =>
    s!"argument {switch.title}: ignored explicit argument {Text.quoted value}"
  | ambiguous argument candidates =>
    let matched := ", ".intercalate candidates
    s!"ambiguous option: {argument} could match {matched}"
  | unrecognized arguments =>
    let listed := " ".intercalate arguments
    s!"unrecognized arguments: {listed}"
  | inputRequired => "input_file is required when not reading from a pipe."

/-- The role of an argument. -/
inductive Role where
  | operand
  | separator
  | option (switch : Switch) (short : Bool) (attached : Option (List Char))
  | unknownOption
  deriving DecidableEq, Repr

/-- Tells whether an argument looks like a negative number: a minus sign, then decimal
digits or a decimal fraction. A line feed at its end makes no difference. -/
def isNegativeNumber (argument : List Char) : Bool :=
  let atEnd (rest : List Char) : Bool := rest == [] || rest == ['\n']
  match argument with
  | '-' :: unsigned =>
    let whole := unsigned.takeWhile Text.isDecimalDigit
    match unsigned.dropWhile Text.isDecimalDigit with
    | '.' :: decimals =>
      decimals.head?.any Text.isDecimalDigit && atEnd (decimals.dropWhile Text.isDecimalDigit)
    | rest => !whole.isEmpty && atEnd rest
  | _ => false

/-- An argument cut at its first equals sign. -/
def cutAtEquals (argument : List Char) : List Char × Option (List Char) :=
  match argument.dropWhile (· != '=') with
  | [] => (argument, none)
  | _ :: value => (argument.takeWhile (· != '='), some value)

/-- The options that an argument can be short for, with their spellings. -/
def abbreviated (argument : List Char) : List (String × Role) :=
  match argument with
  | '-' :: '-' :: _ =>
    let (name, attached) := cutAtEquals argument
    spellings.filterMap fun (spelling, switch) =>
      if name.isPrefixOf spelling.toList then some (spelling, .option switch false attached)
      else none
  | '-' :: letter :: value =>
    spellings.filterMap fun (spelling, switch) =>
      if spelling.toList = ['-', letter] then
        some (spelling, .option switch true (some value))
      else none
  | _ => []

/-- The role of an argument that begins with a dash and names no option exactly. -/
def inexactRole (argument : String) : Except UsageError Role :=
  let characters := argument.toList
  match abbreviated characters with
  | [(_, role)] => .ok role
  | [] =>
    if isNegativeNumber characters || characters.contains ' ' then .ok .operand
    else .ok .unknownOption
  | several => .error (.ambiguous argument (several.map (·.1)))

/-- Tells whether a spelling is a short one. -/
def isShort (spelling : List Char) : Bool := spelling.length == 2

/-- The role of an argument before any double dash. -/
def roleOf (argument : String) : Except UsageError Role :=
  let characters := argument.toList
  if argument = "--" then .ok .separator
  else if characters.head? ≠ some '-' ∨ characters.length = 1 then .ok .operand
  else
    match spellings.lookup argument with
    | some switch => .ok (.option switch (isShort characters) none)
    | none =>
      let (name, attached) := cutAtEquals characters
      match attached, spellings.lookup (String.ofList name) with
      | some attached, some switch => .ok (.option switch (isShort name) (some attached))
      | _, _ => inexactRole argument

/-- The roles of all arguments. -/
def roles : List String → Except UsageError (List (String × Role))
  | [] => .ok []
  | argument :: rest => do
    match ← roleOf argument with
    | .separator => return (argument, .separator) :: rest.map fun later => (later, .operand)
    | role => return (argument, role) :: (← roles rest)

/-- What one argument with options amounts to: the options without values that it
names, and an option that has its value or still needs one. -/
structure Cluster where
  flags : List Switch := []
  valued : Option (Switch × Option String) := none
  deriving DecidableEq, Repr

/-- The cluster of an option that nothing is attached to. -/
def Cluster.single (switch : Switch) : Cluster :=
  if switch.takesValue then { valued := some (switch, none) } else { flags := [switch] }

/-- Reads the options written together in one argument: `switch` has been named, and
the characters are attached to it. They are its value if it takes one. Behind a short
option without a value they name further options. -/
def cluster (switch : Switch) (short : Bool) : List Char → Except UsageError Cluster
  | [] =>
    if switch.takesValue then .ok { valued := some (switch, some "") }
    else .error (.ignoredValue switch "")
  | letter :: attached =>
    let value := String.ofList (letter :: attached)
    if switch.takesValue then .ok { valued := some (switch, some value) }
    else if !short then .error (.ignoredValue switch value)
    else
      match spellings.lookup (String.ofList ['-', letter]) with
      | none => .error (.ignoredValue switch value)
      | some next => do
        let further ← if attached.isEmpty then .ok (.single next) else cluster next true attached
        return { further with flags := switch :: further.flags }

/-- What the arguments ask for. -/
structure Options where
  inputFile : Option String := none
  stage : Option (String × Stage) := none
  color : Bool := true
  deriving DecidableEq, Repr

/-- The reading of the arguments so far. -/
structure Reading where
  options : Options := {}
  inputSettled : Bool := false
  unrecognized : List String := []
  deriving DecidableEq, Repr

/-- The two reasons to stop reading arguments. -/
inductive Stop where
  | help
  | wrong (error : UsageError)
  deriving DecidableEq, Repr

/-- Takes an option without a value into account. -/
def applyFlag (reading : Reading) : Switch → Except Stop Reading
  | .help => .error .help
  | .noColor => .ok { reading with options := { reading.options with color := false } }
  | .compile => .error (.wrong (.expectedValue .compile))

/-- Takes the value of the stage option into account. A double dash stands for the
absence of a value, and so withdraws the stage. -/
def applyStage (reading : Reading) (value : String) : Except Stop Reading :=
  let withStage (stage : Option (String × Stage)) : Reading :=
    { reading with options := { reading.options with stage } }
  if value = "--" then .ok (withStage none)
  else
    match stageChoices.lookup value with
    | some stage => .ok (withStage (some (value, stage)))
    | none => .error (.wrong (.invalidChoice value))

/-- Takes an argument into account that no option claims. -/
def applyUnrecognized (reading : Reading) (argument : String) : Reading :=
  { reading with unrecognized := reading.unrecognized ++ [argument] }

/-- Takes the input file into account, or that there is none. -/
def applyInput (reading : Reading) (input : Option String) : Reading :=
  { reading with options := { reading.options with inputFile := input }, inputSettled := true }

/-- The cluster that an option argument amounts to. -/
def clusterOf (switch : Switch) (short : Bool) : Option (List Char) → Except UsageError Cluster
  | some attached => cluster switch short attached
  | none => .ok (.single switch)

/-- Takes a whole cluster into account, given the value for its last option. -/
def applyCluster (reading : Reading) (cluster : Cluster) (value : Option String) :
    Except Stop Reading := do
  let reading ← cluster.flags.foldlM applyFlag reading
  match value with
  | some value => applyStage reading value
  | none => return reading

/-- Reads the arguments from left to right. -/
def readRoles (reading : Reading) : List (String × Role) → Except Stop Reading
  | [] => .ok reading
  | (argument, .unknownOption) :: rest => readRoles (applyUnrecognized reading argument) rest
  | (_, .option switch short attached) :: rest => do
    let cluster ← (clusterOf switch short attached).mapError .wrong
    match cluster.valued, rest with
    | none, rest => readRoles (← applyCluster reading cluster none) rest
    | some (_, some value), rest => readRoles (← applyCluster reading cluster (some value)) rest
    | some (_, none), (value, .operand) :: rest =>
      readRoles (← applyCluster reading cluster (some value)) rest
    | some (needy, none), _ => .error (.wrong (.expectedValue needy))
  | (argument, role) :: rest =>
    if reading.inputSettled then readRoles (applyUnrecognized reading argument) rest
    else
      match role, rest with
      | .separator, (input, .operand) :: rest => readRoles (applyInput reading (some input)) rest
      | .separator, rest => readRoles (applyInput reading none) rest
      | _, (_, .separator) :: rest => readRoles (applyInput reading (some argument)) rest
      | _, rest => readRoles (applyInput reading (some argument)) rest
termination_by arguments => arguments.length

/-- The options that the arguments ask for. -/
def readArguments (arguments : List String) : Except Stop Options := do
  let roles ← (roles arguments).mapError .wrong
  let reading ← readRoles {} roles
  if reading.unrecognized.isEmpty then return reading.options
  else throw (.wrong (.unrecognized reading.unrecognized))

/-- The line that shows how the command is used. -/
def usage : String := "usage: asc [-h] [-c STAGE] [--no-color] [input_file]\n"

/-- The description of the command and its arguments. -/
def help : String :=
  usage ++ "\nType-check an ArrowScript file.\n\npositional arguments:\n" ++
  "  input_file            Path to the .as file. Reads stdin when omitted.\n" ++
  "\noptions:\n" ++
  "  -h, --help            show this help message and exit\n" ++
  "  -c STAGE, --compile STAGE\n" ++
  "                        Stop after a stage and write its artifact as JSON. '1'\n" ++
  "                        = Token Stream. '2' = Abstract Syntax Tree. '3a' =\n" ++
  "                        Structural Validation Diagnostics. '3b' = Scope Tree\n" ++
  "                        (Name Resolution). '3' = Typed Abstract Syntax Tree.\n" ++
  "  --no-color            Disable ANSI colors in the output.\n"

end ArrowScript.CommandLine
