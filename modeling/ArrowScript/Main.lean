import ArrowScript.CommandLine

/-!
# The program

Runs the command on the files and streams of the system. All that the command prints
and writes is decided in `CommandLine`; this module only performs it.
-/

namespace ArrowScript.CommandLine

/-- A duration in seconds, with four decimals. -/
def seconds (nanoseconds : Nat) : String :=
  let steps := (nanoseconds + 50000) / 100000
  let decimals := toString (steps % 10000)
  let padding := String.ofList (List.replicate (4 - decimals.length) '0')
  s!"{steps / 10000}.{padding}{decimals}"

/-- Reads a stream to its end. -/
partial def readAll (stream : IO.FS.Stream) (collected : ByteArray) : IO ByteArray := do
  let bytes ← stream.read 65536
  if bytes.isEmpty then return collected else readAll stream (collected ++ bytes)

/-- The source that the options name, or nothing if its file does not exist. -/
def load (options : Options) : IO (Option String) := do
  let text ← match options.inputFile with
    | none => do
      let bytes ← readAll (← IO.getStdin) .empty
      match String.fromUTF8? bytes with
      | some text => pure (some text)
      | none => throw (IO.userError "The input is not encoded in UTF-8.")
    | some path =>
      try some <$> IO.FS.readFile path
      catch
        | .noFileOrDirectory .. => pure none
        | failure => throw failure
  return text.map fun text => String.ofList (Text.unifyLineEnds text.toList)

/-- The reason for which the system refuses to write a file. -/
def refusalOf : IO.Error → Option Refusal
  | .noFileOrDirectory .. => some .missingDirectory
  | .inappropriateType .. => some .blockedByDirectory
  | .invalidArgument _ 36 _ => some .nameTooLong
  | _ => none

/-- Performs one action on the system. -/
def perform : Action → IO Unit
  | .print line => IO.println line
  | .complain line => IO.eprintln line
  | .save artifact path text => do
    IO.println (savingLine artifact path)
    try IO.FS.writeFile path text
    catch failure =>
      match refusalOf failure with
      | some refusal => IO.println (notSavedLine artifact path refusal)
      | none => IO.println s!"Error: Could not save artifact '{artifact}': {failure}"

/-- Compiles what the options name, and gives the exit code. -/
def compileNamed (options : Options) : IO Nat := do
  let workingDirectory ← IO.currentDir
  let { actions, exitCode } := match ← load options with
    | some source => script options workingDirectory.toString source
    | none => notFound options
  actions.forM perform
  return exitCode

end ArrowScript.CommandLine

open ArrowScript.CommandLine in
/-- Runs the command with the given arguments. -/
def main (arguments : List String) : IO UInt32 := do
  let started ← IO.monoNanosNow
  let terminal ← (← IO.getStdin).isTty
  match start terminal arguments with
  | .error stop =>
    let { exitCode, output, errors } := stop.report
    IO.print output
    IO.eprint errors
    return exitCode.toUInt32
  | .ok options =>
    IO.println (openingLine options)
    let exitCode ←
      try compileNamed options
      finally
        let duration := seconds ((← IO.monoNanosNow) - started)
        IO.println (closingLine options duration)
    return exitCode.toUInt32
