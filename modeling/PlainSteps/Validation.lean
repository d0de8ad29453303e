import PlainSteps.Browser.Session

/-! # Verdicts

Every step result gets a verdict: whether it is valid, why not, and what may be done about it.
-/

namespace PlainSteps

/-- The verdict on one step of one browser. -/
structure Verdict where
  browser : Text := "chromium"
  step : Int
  isValid : Bool
  message : Text
  fixes : List Text := []
  deriving DecidableEq, Repr

namespace Validation

/-- What may be done about each kind of failure. -/
def fixesByType : List (Text × Text) :=
  [(ErrorType.elementNotFound.word,
     "Verify the element's locator strategies in the app config or its presence on the page"),
   (ErrorType.assertionFailed.word,
     "Check the expected text or condition against the page content"),
   (ErrorType.timeout.word, "Increase the wait before this action or the strategy timeout"),
   (ErrorType.browserError.word,
     "Check the browser installation (playwright install) and the page state")]

/-- What may be done about a kind of failure. -/
def fixOfType? (type : Option Text) : Option Text := type.bind fun t => Json.lookup? t fixesByType

/-- What may be done about a session that failed. -/
def sessionFix : Text := (fixOfType? (some ErrorType.browserError.word)).getD []

/-- The message of a result in lower case, empty when it has none. -/
def loweredError (r : StepResult) : Text := Text.lower (r.error.getD [])

/-- Whether a failure has to do with reaching an address. -/
def isNetwork (r : StepResult) : Bool :=
  let error := loweredError r
  Text.includes "net::" error || Text.includes "navigation" error ||
    (r.action == ActionKind.navigate.word && !error.isEmpty)

/-- What may be done about a result that is not valid. -/
def suggestFixes (r : StepResult) : List Text :=
  if r.status == StepResult.skipped then ["Check previous step dependencies"]
  else
    let fixes := (fixOfType? r.errorType).toList ++
      if isNetwork r then ["Check URL and network connectivity".toList] else []
    if fixes.isEmpty && !(loweredError r).isEmpty then
      ["Review the step description and retry"] else fixes

/-- Why a result is valid or not. -/
def message (r : StepResult) : Text :=
  if r.status == StepResult.passed then "Step executed successfully"
  else if r.status == StepResult.skipped then "Step was skipped during execution"
  else match r.error.filter (!·.isEmpty) with
    | some e => "Execution error: ".toList ++ e
    | none => "Step execution failed"

/-- The verdict on a result. -/
def validateStep (browser : Text) (r : StepResult) : Verdict :=
  let isValid := r.status == StepResult.passed
  { browser,
    step := r.step, isValid, message := message r, fixes := if isValid then [] else suggestFixes r }

/-- The verdict on a session that failed before any step. -/
def sessionVerdict (browser error : Text) : Verdict :=
  { browser, step := 0, isValid := false, message := "Browser session failed: ".toList ++ error
    fixes := [sessionFix] }

/-- The verdicts on a run. -/
def validateRun (r : Run) : List Verdict :=
  match r.steps, r.error.filter (!·.isEmpty) with
  | [], some e => [sessionVerdict r.browser e]
  | steps, _ => steps.map (validateStep r.browser)

/-- The verdicts on runs. -/
def verdicts (runs : List Run) : List Verdict := runs.flatMap validateRun

/-- The share of verdicts that are valid. -/
def confidence (vs : List Verdict) : Binary64 := Session.share (vs.countP (·.isValid)) vs.length

/-- The verdicts on runs and the share of them that is valid, told on the way. -/
def validate (runs : List Run) : Told (List Verdict × Binary64) := do
  let total := (runs.flatMap (·.steps)).length
  Told.say ("Validating ".toList ++ Text.ofNat total ++ " step results across " ++
    Text.ofNat runs.length ++ " browser runs...")
  let vs := verdicts runs
  Told.say ("Validation complete: ".toList ++ Text.ofNat (vs.countP (·.isValid)) ++ "/" ++
    Text.ofNat vs.length ++ " steps valid, confidence: " ++ (confidence vs).fixed 2)
  return (vs, confidence vs)

end Validation

end PlainSteps
