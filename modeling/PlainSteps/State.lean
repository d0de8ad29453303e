import PlainSteps.Compilation
import PlainSteps.Validation

/-! # The state of a prompt

What is known of a prompt on its way through the pipeline: its compilation, its runs and the
verdicts on them. The names of the fields as records write them are here too.
-/

namespace PlainSteps

open Schema

/-- A prompt on its way through the pipeline. -/
structure State where
  prompt : Prompt := {}
  units : List StepUnit := []
  sequence : Sequence := {}
  app : Text := "orangehrm"
  browsers : List Text := ["chromium"]
  headed : Bool := false
  parallel : Bool := false
  timestamp : Text := []
  error : Option Text := none
  runs : List Run := []
  verdicts : List Verdict := []
  compiled : Bool := false
  executed : Bool := false
  validated : Bool := false
  executorConfidence : Binary64 := .zero
  validatorConfidence : Binary64 := .zero
  input : Text := []
  deriving DecidableEq, Repr

/-- Whether a prompt went through without an error and succeeded on every browser. -/
def State.isSuccess (s : State) : Bool :=
  s.error.isNone && !s.runs.isEmpty && s.runs.all (·.success)

/-- The state of a prompt that was only compiled. -/
def State.ofCompilation (config : Config) (c : Compilation) (input : Text) : State :=
  { prompt := c.prompt, units := c.units, sequence := c.sequence, app := Text.lower config.name
    compiled := true, input }

/-! ### Records -/

/-- A prompt as a record. -/
def Prompt.toJson (p : Prompt) : Json :=
  Json.record [("file", .str p.file), ("title", .str p.title), ("tags", Json.strs p.tags),
    ("body", .str p.body)]

/-- Reads a prompt. -/
def Prompt.ofJson : Json → Checked Prompt :=
  record "PromptDocument" fun ms =>
    Prompt.mk <$> fieldOr "file" [] text ms <*> fieldOr "title" [] text ms
      <*> fieldOr "tags" [] (list text) ms <*> fieldOr "body" [] text ms

/-- Reads a step. -/
def StepUnit.ofJson : Json → Checked StepUnit :=
  record "StepUnit" fun ms => (fun i t => ⟨i.toNat, t⟩) <$>
    field "index" whole ms <*> field "text" Schema.text ms

/-- A step result as a record. -/
def StepResult.toJson (r : StepResult) : Json :=
  Json.record [("step", .int r.step), ("action", .str r.action),
    ("description", .str r.description), ("status", .str r.status), ("details", .str r.details),
    ("error", Json.optStr r.error), ("error_type", Json.optStr r.errorType),
      ("duration_ms", .int r.duration)]

/-- Reads a step result. -/
def StepResult.ofJson : Json → Checked StepResult :=
  record "StepResult" fun ms =>
    StepResult.mk <$> field "step" whole ms <*> field "action" text ms
      <*> fieldOr "description" [] text ms <*> field "status" text ms
      <*> fieldOr "details" [] text ms <*> fieldOr "error" none (optional text) ms
      <*> fieldOr "error_type" none (optional text) ms <*> fieldOr "duration_ms" 0 whole ms

/-- A run as a record. -/
def Run.toJson (r : Run) : Json :=
  Json.record [("file", .str r.file), ("title", .str r.title), ("browser", .str r.browser),
    ("success", .bool r.success), ("duration_ms", .int r.duration), ("error", Json.optStr r.error),
    ("steps", .arr (r.steps.map StepResult.toJson))]

/-- Reads a run. -/
def Run.ofJson : Json → Checked Run :=
  record "PromptResult" fun ms =>
    Run.mk <$> fieldOr "file" [] text ms <*> fieldOr "title" [] text ms
      <*> fieldOr "browser" "chromium" text ms <*> fieldOr "success" false switch ms
      <*> fieldOr "duration_ms" 0 whole ms <*> fieldOr "error" none (optional text) ms
      <*> fieldOr "steps" [] (list StepResult.ofJson) ms

/-- A verdict as a record. -/
def Verdict.toJson (v : Verdict) : Json :=
  Json.record [("browser", .str v.browser), ("step", .int v.step), ("is_valid", .bool v.isValid),
    ("validation_message", .str v.message), ("suggested_fixes", Json.strs v.fixes)]

/-- Reads a verdict. -/
def Verdict.ofJson : Json → Checked Verdict :=
  record "ValidationResult" fun ms =>
    Verdict.mk <$> fieldOr "browser" "chromium" text ms <*> field "step" whole ms
      <*> field "is_valid" switch ms <*> field "validation_message" text ms
      <*> fieldOr "suggested_fixes" [] (list text) ms

/-- Reads a state. -/
def State.ofJson : Json → Checked State :=
  record "TestState" fun ms =>
    State.mk <$> fieldOr "prompt" {} Prompt.ofJson ms
      <*> fieldOr "step_units" [] (list StepUnit.ofJson) ms
      <*> fieldOr "sequence" {} Sequence.ofJson ms
      <*> fieldOr "app" "orangehrm" text ms
      <*> fieldOr "browsers" ["chromium"] (list text) ms
      <*> fieldOr "headed" false switch ms
      <*> fieldOr "parallel" false switch ms
      <*> fieldOr "timestamp" [] text ms
      <*> fieldOr "error" none (optional text) ms
      <*> fieldOr "results" [] (list Run.ofJson) ms
      <*> fieldOr "validation_results" [] (list Verdict.ofJson) ms
      <*> fieldOr "parsing_complete" false switch ms
      <*> fieldOr "execution_complete" false switch ms
      <*> fieldOr "validation_complete" false switch ms
      <*> fieldOr "executor_confidence" .zero number ms
      <*> fieldOr "validator_confidence" .zero number ms
      <*> fieldOr "raw_test_input" [] text ms

end PlainSteps
