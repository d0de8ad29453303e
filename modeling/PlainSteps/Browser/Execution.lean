import PlainSteps.Action
import PlainSteps.Browser.Locator
import PlainSteps.Files.Path

/-! # Running actions

An action passes or fails, and its result says why; the actions behind a failed one are skipped.
-/

namespace PlainSteps

/-- The kinds of failure a result tells apart. -/
inductive ErrorType where
  | elementNotFound
  | assertionFailed
  | timeout
  | browserError
  | unexpected
  deriving DecidableEq, Repr

/-- The word for a kind of failure. -/
def ErrorType.word : ErrorType → Text
  | elementNotFound => "element_not_found"
  | assertionFailed => "assertion_failed"
  | timeout => "timeout"
  | browserError => "browser_error"
  | unexpected => "unexpected_error"

/-- The kind of a failure. -/
def StepError.type : StepError → ErrorType
  | notFound .. => .elementNotFound
  | visible _ => .assertionFailed
  | lacks .. => .assertionFailed
  | fault (.timeout _) => .timeout
  | fault (.browser _) => .browserError
  | _ => .unexpected

/-- The result of one action. -/
structure StepResult where
  /-- The place of the action in its sequence, from one on. -/
  step : Int
  action : Text
  description : Text := []
  status : Text
  details : Text := []
  error : Option Text := none
  errorType : Option Text := none
  /-- Milliseconds. -/
  duration : Int := 0
  deriving DecidableEq, Repr

namespace StepResult

/-- The status of an action that did what it should. -/
def passed : Text := "passed"

/-- The status of an action that did not. -/
def failed : Text := "failed"

/-- The status of an action behind a failed one. -/
def skipped : Text := "skipped"

/-- The result of an action that passed. -/
def pass (n : Int) (a : Action) (details : Text) (duration : Int) : StepResult :=
  { step := n, action := a.kind.word, description := a.description, status := passed,
    details, duration }

/-- The result of an action that failed. -/
def fail (n : Int) (a : Action) (e : StepError) (duration : Int) : StepResult :=
  { step := n, action := a.kind.word, description := a.description, status := failed
    details := "Step failed", error := some e.message, errorType := some e.type.word, duration }

/-- The result of an action behind the one that failed. -/
def skip (n : Int) (a : Action) (failedAt : Int) : StepResult :=
  { step := n, action := a.kind.word, description := a.description, status := skipped
    details := "Skipped after failure at step ".toList ++ Text.ofInt failedAt }

end StepResult

namespace Execution

/-- What running actions depends on. -/
structure Setting where
  config : Application
  /-- Where a picture of the page is taken when an action fails. -/
  screenshots : Option Text := none

/-- The directory for pictures, which an empty name is not. -/
def Setting.pictures (s : Setting) : Option Text := s.screenshots.filter (!·.isEmpty)

/-- A value as a message shows it. -/
def shown (t : Option Text) : Text := t.getD "None"

/-- The element an action names. -/
def target (a : Action) : Acting Text :=
  match a.target with
  | some element => return element
  | none => throw .noTarget

/-- The element an action works on, which the page itself is not. -/
def elementOf (config : Application) (a : Action) : Acting Query := do
  let element ← target a
  match ← Locator.resolve config element with
  | some q => return q
  | none => throw (.notFound element ["url match is not an interactive element"])

/-- How a condition on the text of an element begins. -/
def containsMark : Text := "contains:"

/-- Checks that an element is not to be found. -/
def assertHidden (config : Application) (element : Text) : Acting Text := ExceptT.mk do
  match ← (Locator.resolve config element).run with
  | .error (.notFound _ _) => return .ok ("Assert successful: ".toList ++ element ++ " hidden")
  | .error e => return .error e
  | .ok _ => return .error (.visible element)

/-- Checks a condition of an element that is found. -/
def assertFound (config : Application) (element condition : Text) : Acting Text := do
  let found ← Locator.resolve config element
  if Text.startsWith containsMark condition then
    let expected := condition.drop containsMark.length
    let text ← Acting.request (.innerText (found.getD (.selector "body")))
    if !Text.includes (Text.lower expected) (Text.lower text) then
      throw (.lacks element expected)
  return "Assert successful: ".toList ++ element ++ ' ' :: condition

/-- The condition an action checks. -/
def conditionOf (a : Action) : Text :=
  let condition := a.condition.getD []
  if condition.isEmpty then "visible" else condition

/-- The pause of an action that gives none, or none at all. -/
def defaultPause : Int := 1000

/-- How long an action pauses. -/
def pauseOf (a : Action) : Int :=
  let ms := a.timeout.getD 0
  if ms == 0 then defaultPause else ms

/-- Does what an action says; the text tells what was done. -/
def perform (config : Application) (a : Action) : Acting Text :=
  match a.kind with
  | .navigate => do
    Acting.request (.goto a.target)
    return "Navigate successful: ".toList ++ shown a.target
  | .wait => do
    Acting.request (.pause (pauseOf a))
    return "Wait completed: ".toList ++ shown (a.timeout.map Text.ofInt) ++ "ms"
  | .fill => do
    let q ← elementOf config a
    Acting.request (.fill q (a.value.getD []))
    return "Fill successful: ".toList ++ shown a.target ++ " = " ++ shown a.value
  | .click => do
    let q ← elementOf config a
    Acting.request (.click q)
    return "Click successful: ".toList ++ shown a.target
  | .assert => do
    let element ← target a
    if conditionOf a == "hidden".toList then assertHidden config element
    else assertFound config element (conditionOf a)

/-- The file for the picture of a failed action. -/
def pictureName (n : Int) (a : Action) : Text :=
  "step_".toList ++ Text.ofIntPadded 2 n ++ '_' :: a.kind.word ++ "_failed.png"

/-- Takes a picture of the page. An error of the browser is told; any other one goes on. -/
def takePicture (directory : Text) (n : Int) (a : Action) : ExceptT Fault Script Unit := do
  ExceptT.mk (Script.request (.makeDirectory directory))
  let path := Path.join directory (pictureName n a)
  match ← ExceptT.lift (Script.request (.screenshot path)) with
  | .ok _ => ExceptT.lift (Script.tell ("Screenshot saved to ".toList ++ path))
  | .error f =>
    if f.isBrowser then
      ExceptT.lift (Script.tell ("Failed to take screenshot: ".toList ++ f.message))
    else throw f

/-- Runs one action. What goes wrong with it is in its result; only taking the picture may fail
otherwise. -/
def execute (s : Setting) (a : Action) (n : Int) : ExceptT Fault Script StepResult := do
  let start ← ExceptT.lift Script.now
  let outcome ← ExceptT.lift (perform s.config a).run
  let finish ← ExceptT.lift Script.now
  match outcome with
  | .ok details => return .pass n a details (finish - start)
  | .error e =>
    match s.pictures with
    | some directory => takePicture directory n a
    | none => pure ()
    return .fail n a e (finish - start)

/-- The results of actions behind one that failed; `n` is the place of the first. -/
def skipAll (failedAt : Int) : Int → List Action → List StepResult
  | _, [] => []
  | n, a :: rest => .skip n a failedAt :: skipAll failedAt (n + 1) rest

/-- Runs actions in order until one fails; `n` is the place of the first. -/
def runFrom (s : Setting) (total : Nat) : Int → List Action → ExceptT Fault Script (List StepResult)
  | _, [] => return []
  | n, a :: rest => do
    ExceptT.lift (Script.tell ("      [".toList ++ Text.ofInt n ++ "/" ++ Text.ofNat total ++
      "] " ++ a.description))
    let result ← execute s a n
    if result.status == StepResult.failed then
      ExceptT.lift
        (Script.tell ("      ❌ Step ".toList ++ Text.ofInt n ++ " failed (" ++
        a.description ++ "): " ++ shown result.error))
      return result :: skipAll n (n + 1) rest
    else return result :: (← runFrom s total (n + 1) rest)

/-- Runs a sequence. -/
def runSequence (s : Setting) (seq : Sequence) : ExceptT Fault Script (List StepResult) :=
  runFrom s seq.actions.length 1 seq.actions

end Execution

end PlainSteps
