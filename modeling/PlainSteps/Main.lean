import PlainSteps.CommandLine.Compile
import PlainSteps.CommandLine.Run
import PlainSteps.Json.Reader
import PlainSteps.Workspace

/-! # The program

The first argument names a command, the others belong to it. The workspace in which the command is
played is read from standard input as a record: `files` by their paths, variables in `env`, and the
pages of `sessions`. What the command tells is written to standard output, and so is a record of the
files it made.
-/

namespace PlainSteps.Program

/-- The moment at which the program is run, when the workspace gives none. -/
def epoch : Moment := ⟨1970, 1, 1, 0, 0, 0⟩

/-- The moment that a workspace gives as year, month, day, hour, minute and second. -/
def momentOf (x : Json) : Moment :=
  match x.itemsAt? "now" with
  | some [.int y, .int mo, .int d, .int h, .int mi, .int s] =>
    ⟨y.toNat, mo.toNat, d.toNat, h.toNat, mi.toNat, s.toNat⟩
  | _ => epoch

/-- The command that arguments name; its number is the exit code. -/
def command? (w : Workspace) : List Text → Option (Command Nat)
  | [] => none
  | name :: arguments =>
    if name == "compile".toList then some do
      Command.Compile.run w.setting arguments
      return 0
    else if name == "run".toList then some (Command.Run.run w.setting arguments)
    else none

/-- What the program writes to its two outputs, and its exit code. -/
structure Output where
  standard : Text
  error : Text := []
  exitCode : Nat
  deriving DecidableEq, Repr

/-- The files that were made as a record. -/
def createdJson (w : Workspace) (tree : Files) : Json :=
  .obj ((w.created tree).filterMap fun (path, content) =>
    match content with
    | .text t => some (path, .str t)
    | .workbook _ => none)

/-- The output of a command that was played. -/
def outputOf (w : Workspace) (played : Told (Except Stop Nat × Stage)) : Output :=
  let log := Told.transcript played.lines
  let (ending, stage) := played.value
  match ending with
  | .ok code =>
    { standard := log ++ (createdJson w stage.files).pretty ++ ['\n'], exitCode := code }
  | .error stop =>
    { standard := log, error := Told.transcript [stop.message], exitCode := stop.exitCode?.getD 1 }

/-- The output of the program for arguments and a written workspace. -/
def output (arguments : List Text) (written : Text) : Output :=
  match Json.read written with
  | .error e => { standard := [], error := Told.transcript [e.message], exitCode := 2 }
  | .ok x =>
    let w := Workspace.ofJson (momentOf x) x
    match command? w arguments with
    | none => { standard := [], error := Told.transcript ["commands: compile, run"], exitCode := 2 }
    | some command => outputOf w (w.run command)

/-- All that is left on a stream, behind what was read already. -/
partial def readAll (stream : IO.FS.Stream) (before : String) : IO String := do
  let line ← stream.getLine
  if line.isEmpty then return before else readAll stream (before ++ line)

end PlainSteps.Program

/-- Runs the program. -/
def main (arguments : List String) : IO UInt32 := do
  let written ← PlainSteps.Program.readAll (← IO.getStdin) ""
  let output := PlainSteps.Program.output (arguments.map String.toList) written.toList
  IO.print (String.ofList output.standard)
  IO.eprint (String.ofList output.error)
  return UInt32.ofNat output.exitCode
