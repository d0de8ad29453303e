import PlainSteps.Files.Glob
import PlainSteps.Json.Printer
import PlainSteps.Report

/-! # The pipeline

A prompt is compiled, run on every browser and validated; an error on the way is kept with the
prompt and does not touch the others. A run over many prompts ends with one report.
-/

namespace PlainSteps

/-- What the pipeline depends on. -/
structure Pipeline where
  config : Application
  /-- The browsers that were selected. -/
  browsers : List Text
  parallel : Bool := false
  headed : Bool := false
  /-- The files in which prompts and data are found. -/
  files : Files
  now : Moment

namespace Pipeline

/-- The directory for pictures of failed actions. -/
def pictures : Text := "screenshots"

/-- The directory for reports. -/
def reports : Text := "execution_results"

/-- The compiler of a pipeline. -/
def compiler (p : Pipeline) : Compiler :=
  ⟨p.config.toConfig, (DataSource.ofFiles p.files p.config.dataDir).readBy p.config.libraries⟩

/-- What the sessions of a pipeline depend on. -/
def session (p : Pipeline) : Session.Setting :=
  ⟨p.config, p.headed, some pictures, "run_".toList ++ p.now.stamp⟩

/-! ### Prompts -/

/-- The extensions of prompts. -/
def extensions : List Text := [".txt", ".prompt"]

/-- Whether a path is that of a prompt. -/
def isPrompt (files : Files) (path : Text) : Bool :=
  extensions.any (Text.endsWith · (Text.lower path)) && files.isFile path

/-- All prompts below a directory, in the order of their paths. -/
def allPrompts (files : Files) (directory : Text) : List Text :=
  ((Glob.find files (Path.join directory "**/*")).filter (isPrompt files)).mergeSort Text.notAfter

/-- Whether a prompt has one of the wanted tags, in any case. -/
def hasTag (wanted : List Text) (prompt : Prompt) : Bool :=
  prompt.tags.any fun tag => wanted.contains (Text.lower tag)

/-- The prompts among paths that have one of the wanted tags. One that cannot be read ends the
search. -/
def keepTagged (files : Files) (wanted : List Text) : List Text → Except FileError (List Text)
  | [] => .ok []
  | path :: rest => do
    let prompt := Prompt.parse (← files.readText path) path
    let kept ← keepTagged files wanted rest
    return if hasTag wanted prompt then path :: kept else kept

/-- The prompts below a directory, only those with one of the tags if tags are given. -/
def select (files : Files) (directory : Text) (tags : List Text) : Except FileError (List Text) :=
  let all := allPrompts files directory
  if tags.isEmpty then .ok all else keepTagged files (tags.map Text.lower) all

/-- The prompts that are selected, none when one of them cannot be read. -/
def discover (files : Files) (directory : Text) (tags : List Text) : List Text :=
  (select files directory tags).toOption.getD []

/-! ### One prompt -/

/-- The state in which a prompt begins. -/
def start (p : Pipeline) (path : Text) : Except FileError State := do
  let input ← p.files.readText path
  return { prompt := { file := path }, app := Text.lower p.config.name, browsers := p.browsers
           headed := p.headed, parallel := p.parallel, timestamp := p.now.stamp, input }

/-- Plays what was told in a script. -/
def tellAll (lines : List Text) : Script Unit := Session.telling lines (pure ())

/-- Compiles the prompt of a state. -/
def compileStage (p : Pipeline) (s : State) : Script (Except Text State) := do
  Script.tell "Running parser agent..."
  let told := (p.compiler.compilePrompt s.input s.prompt.file).run
  tellAll told.lines
  return match told.value with
    | .error e => .error e.message
    | .ok c =>
      .ok { s with prompt := c.prompt, units := c.units, sequence := c.sequence, compiled := true }

/-- Runs the sequence of a state on every browser. -/
def executeStage (p : Pipeline) (s : State) : Script (Except Text State) := do
  Script.tell "Running browser executor agent..."
  match ← Session.runAll p.session s.sequence s.prompt s.browsers s.parallel with
  | .error e => return .error e.message
  | .ok outcome =>
    Script.tell ("Executor confidence: ".toList ++ outcome.confidence.fixed 2)
    return .ok
      { s with runs := outcome.runs, executed := true, executorConfidence := outcome.confidence }

/-- Validates the runs of a state. -/
def validateStage (s : State) : Script State := do
  Script.tell "Running validation agent..."
  let told := Validation.validate s.runs
  tellAll told.lines
  let (verdicts, confidence) := told.value
  Script.tell ("Validator confidence: ".toList ++ confidence.fixed 2)
  return { s with verdicts, validated := true, validatorConfidence := confidence }

/-- Takes a prompt through all stages. -/
def stages (p : Pipeline) (s : State) : Script (Except Text State) := do
  match ← p.compileStage s with
  | .error e => return .error e
  | .ok s =>
    match ← p.executeStage s with
    | .error e => return .error e
    | .ok s => return .ok (← validateStage s)

/-- Takes a prompt through all stages; an error brings it back to its start and is kept there. -/
def runPrompt (p : Pipeline) (s : State) : Script State := do
  match ← p.stages s with
  | .ok done => return done
  | .error e =>
    Script.tell ("❌ Error running pipeline for ".toList ++ s.prompt.file ++ ": " ++ e)
    return { s with error := some e }

/-! ### Many prompts -/

/-- A line between prompts. -/
def ruler : Text := Text.rule 40 '='

/-- Takes prompts through all stages; `n` is the place of the first among `total`. A prompt that
cannot be read ends the run. -/
def runFrom (p : Pipeline) (total : Nat) : Nat → List Text → Script (Except FileError (List State))
  | _, [] => return .ok []
  | n, path :: rest => do
    Script.tell ('\n' :: ruler)
    Script.tell ('[' :: Text.ofNat n ++ "/" ++ Text.ofNat total ++ "] " ++ path)
    Script.tell ruler
    match p.start path with
    | .error e => return .error e
    | .ok s =>
      let s ← p.runPrompt s
      return (← runFrom p total (n + 1) rest).map (s :: ·)

/-- Takes prompts through all stages. -/
def runAll (p : Pipeline) (paths : List Text) : Script (Except FileError (List State)) :=
  p.runFrom paths.length 1 paths

/-- The report on states. -/
def report (p : Pipeline) (states : List State) : Report :=
  Report.ofStates p.config.name p.browsers p.parallel p.now states

/-- The file of a report. -/
def reportFile (p : Pipeline) : Text :=
  Path.join reports ("summary_report_".toList ++ p.now.stamp ++ ".json")

/-- Saves the report on states and tells it. -/
def publish (p : Pipeline) (states : List State) : ExceptT Fault Script Unit := do
  let report := p.report states
  ExceptT.mk (Script.request (.makeDirectory reports))
  ExceptT.mk (Script.request (.writeText p.reportFile report.toJson.pretty))
  ExceptT.lift (Script.tell ("\nSummary report saved to: ".toList ++ p.reportFile))
  ExceptT.lift (tellAll report.lines)

/-- Why prompts are not compiled. -/
inductive CompileError where
  | file (e : FileError)
  | generation (e : GenerationError)
  deriving DecidableEq, Repr

/-- The message for prompts that are not compiled. -/
def CompileError.message : CompileError → Text
  | file e => e.message
  | generation e => e.message

/-- A compiled prompt as a record. -/
def compiledJson (path : Text) (c : Compilation) : Json :=
  Json.record [("file", .str path), ("title", .str c.prompt.title),
    ("tags", Json.strs c.prompt.tags), ("actions", c.sequence.toJson)]

/-- Compiles prompts without running them. -/
def compileOnly (p : Pipeline) : List Text → Trying CompileError (List (Text × Compilation))
  | [] => return []
  | path :: rest => do
    let input ← ExceptT.mk (pure ((p.files.readText path).mapError .file))
    let c ← ExceptT.adapt .generation (p.compiler.compilePrompt input path)
    return (path, c) :: (← p.compileOnly rest)

end Pipeline

end PlainSteps
