import PlainSteps.Moment
import PlainSteps.State

/-! # Reports

The summary of a run over many prompts: how many browser runs passed, how sure the stages are of it,
and what failed. Shares are in percent with two decimal places; a share of nothing is a plain zero.
-/

namespace PlainSteps

/-- A share in percent, or the zero of nothing. -/
abbrev Percentage := Option Binary64

namespace Percentage

/-- A number as a share in percent. -/
def ofShare (x : Binary64) : Percentage := some ((x.mul (.ofInt 100)).roundTo 2)

/-- A share as a record keeps it. -/
def toJson : Percentage → Json
  | none => .int 0
  | some x => .float x

/-- A share as a message shows it. -/
def text : Percentage → Text
  | none => "0"
  | some x => x.shortest

end Percentage

/-- A failed step in a report. -/
structure Failure where
  step : StepResult
  /-- What the verdict on the step says. -/
  validation : Option Text
  fixes : List Text
  deriving DecidableEq, Repr

/-- A run in a report. -/
structure Entry where
  run : Run
  actions : Nat
  failures : List Failure
  deriving DecidableEq, Repr

/-- The summary of a run over prompts. -/
structure Report where
  timestamp : Text
  app : Text
  browsers : List Text
  parallel : Bool
  prompts : Nat
  runs : Nat
  passed : Nat
  failed : Nat
  passRate : Percentage
  executor : Percentage
  validator : Percentage
  /-- The prompts that ended with an error, with its message. -/
  errors : List (Text × Text)
  entries : List Entry
  deriving DecidableEq, Repr

namespace Report

/-- The verdict on a step of a run that is not valid: the last one for its browser and number. -/
def verdictOf? (verdicts : List Verdict) (run : Run) (step : Int) : Option Verdict :=
  (verdicts.filter fun v => v.browser == run.browser && !v.isValid && v.step == step).getLast?

/-- A failed step with what is said of it. -/
def failureOf (verdicts : List Verdict) (run : Run) (step : StepResult) : Failure :=
  match verdictOf? verdicts run step.step with
  | some v => ⟨step, some v.message, v.fixes⟩
  | none => ⟨step, none, []⟩

/-- A run of a state. -/
def entryOf (s : State) (run : Run) : Entry :=
  ⟨run, s.sequence.actions.length,
    (run.steps.filter (·.status == StepResult.failed)).map (failureOf s.verdicts run)⟩

/-- The mean of scores in percent. -/
def mean (scores : List Binary64) : Percentage :=
  if scores.isEmpty then none
  else Percentage.ofShare ((scores.foldl Binary64.add .zero).div (.ofInt scores.length))

/-- The prompts with an error. -/
def errorsOf (states : List State) : List (Text × Text) :=
  states.filterMap fun s => (s.error.filter (!·.isEmpty)).map fun e => (s.prompt.file, e)

/-- The summary of states. -/
def ofStates (app : Text) (browsers : List Text) (parallel : Bool) (now : Moment)
    (states : List State) : Report :=
  let runs := states.flatMap (·.runs)
  let passed := runs.countP (·.success)
  { timestamp := now.readable, app, browsers, parallel
    prompts := states.length, runs := runs.length, passed, failed := runs.length - passed
    passRate := if runs.isEmpty then none else Percentage.ofShare (Session.share passed runs.length)
    executor := mean (states.map (·.executorConfidence))
    validator := mean (states.map (·.validatorConfidence))
    errors := errorsOf states
    entries := states.flatMap fun s => s.runs.map (entryOf s) }

/-! ### Records -/

/-- A failed step as a record. -/
def failureJson (f : Failure) : Json :=
  Json.record [("step", .int f.step.step), ("action", .str f.step.action),
    ("description", .str f.step.description), ("error", Json.optStr f.step.error),
    ("error_type", Json.optStr f.step.errorType), ("validation", Json.optStr f.validation),
      ("suggested_fixes", Json.strs f.fixes)]

/-- A run as a record. -/
def entryJson (e : Entry) : Json :=
  Json.record [("file", .str e.run.file), ("title", .str e.run.title),
    ("browser", .str e.run.browser), ("success", .bool e.run.success),
    ("duration_ms", .int e.run.duration), ("actions", Json.nat e.actions),
    ("passed_steps", Json.nat (e.run.count StepResult.passed)),
    ("failed_steps", Json.nat (e.run.count StepResult.failed)), ("error", Json.optStr e.run.error),
      ("failures", .arr (e.failures.map failureJson))]

/-- A report as a record; `share` writes percentages. -/
def toJsonWith (share : Percentage → Json) (r : Report) : Json :=
  Json.record [("timestamp", .str r.timestamp), ("app", .str r.app),
    ("browsers", Json.strs r.browsers), ("parallel", .bool r.parallel),
    ("statistics", Json.record [("prompts", Json.nat r.prompts), ("runs", Json.nat r.runs),
      ("passed", Json.nat r.passed), ("failed", Json.nat r.failed),
        ("pass_rate", share r.passRate)]),
    ("confidence_scores",
      Json.record [("executor", share r.executor), ("validator", share r.validator)]),
    ("pipeline_errors", .arr (r.errors.map fun (file, error) =>
      Json.record [("file", .str file), ("error", .str error)])),
    ("results", .arr (r.entries.map entryJson))]

/-- A report as it is saved. -/
def toJson (r : Report) : Json := toJsonWith Percentage.toJson r

/-- The lines that tell a report. -/
def lines (r : Report) : List Text :=
  ["\n=== TEST EXECUTION SUMMARY ===".toList,
   "📊 Prompts: ".toList ++ Text.ofNat r.prompts ++ ", browser runs: " ++ Text.ofNat r.runs,
   "✅ Passed: ".toList ++ Text.ofNat r.passed,
   "❌ Failed: ".toList ++ Text.ofNat r.failed,
   "📈 Pass rate: ".toList ++ r.passRate.text ++ "%"] ++
  (r.entries.filter (!·.run.success)).map (fun e =>
    "   - [".toList ++ e.run.browser ++ "] " ++ e.run.title ++ ": " ++
      Execution.shown e.run.error) ++
  r.errors.map fun (file, error) => "   - ".toList ++ file ++ ": " ++ error

end Report

end PlainSteps
