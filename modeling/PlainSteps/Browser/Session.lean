import PlainSteps.Browser.Execution
import PlainSteps.Number.Notation
import PlainSteps.Prompt

/-! # Sessions

A sequence runs in one fresh session for each browser. An error of the browser outside the actions
ends its own session and is the result of that one; the session is closed in any case once it was
opened.
-/

namespace PlainSteps

/-- The result of a prompt on one browser. -/
structure Run where
  file : Text := []
  title : Text := []
  browser : Text := "chromium"
  success : Bool := false
  /-- Milliseconds. -/
  duration : Int := 0
  error : Option Text := none
  steps : List StepResult := []
  deriving DecidableEq, Repr

/-- How many steps of a run have a status. -/
def Run.count (r : Run) (status : Text) : Nat := r.steps.countP (·.status == status)

/-- The browsers, each with its engine and, if it is a distribution of that, its channel. -/
def engines : List (Text × Text × Option Text) :=
  [("chromium", "chromium", none), ("chrome", "chromium", some "chrome"),
   ("edge", "chromium", some "msedge"), ("firefox", "firefox", none), ("webkit", "webkit", none)]

/-- The browser that is used when no other is named. -/
def defaultBrowser : Text := "chromium"

/-- The engine and the channel of a browser. -/
def engineOf (browser : Text) : Text × Option Text :=
  (Json.lookup? browser engines).getD ("chromium", none)

/-- The known browsers among those asked for, in their order. -/
def selectBrowsers (requested : List Text) : Told (List Text) :=
  if requested.isEmpty then return [defaultBrowser]
  else
    let names := requested.map fun b => Text.lower (Text.trim b)
    let valid := names.filter fun b => engines.any (·.1 == b)
    if valid.isEmpty then do
      Told.say "⚠️  No valid browsers specified, defaulting to chromium"
      return [defaultBrowser]
    else return valid

/-- Why no result is reached for a session. -/
inductive SessionError where
  /-- A fault from outside the browser. -/
  | fault (f : Fault)
  /-- The session took longer than a number of double precision can say. -/
  | duration
  deriving DecidableEq, Repr

/-- The message of a session without a result. -/
def SessionError.message : SessionError → Text
  | fault f => f.message
  | duration => "integer division result too large for a float"

namespace Session

/-- What sessions depend on. -/
structure Setting where
  config : Application
  headed : Bool := false
  /-- The directory for pictures of failed actions. -/
  pictures : Option Text := none
  /-- The directory of this run below that one. -/
  runId : Text := []

/-- Where the pictures of a browser go. -/
def pictureDirectory (s : Setting) (browser : Text) : Option Text :=
  (s.pictures.filter (!·.isEmpty)).map fun d => Path.join (Path.join d s.runId) browser

/-- Makes a request; its faults are those of the session. -/
def request (q : Request) : ExceptT Fault Script q.Reply := ExceptT.mk (Script.request q)

/-- The steps of a sequence in a session of its own. -/
def steps (s : Setting) (seq : Sequence) (browser : Text) :
    ExceptT Fault Script (List StepResult) := do
  let (engine, channel) := engineOf browser
  request (.launch engine (!s.headed) channel)
  let outcome ← ExceptT.lift (ExceptT.run do
    request .newPage
    Execution.runSequence ⟨s.config, pictureDirectory s browser⟩ seq)
  request .close
  ExceptT.mk (pure outcome)

/-- Seconds with one decimal place; nothing when there are too many. -/
def seconds? (ms : Int) : Option Text :=
  match Binary64.ofRatio (ms < 0) ms.natAbs 1000 with
  | .infinite _ => none
  | x => some (x.fixed 1)

/-- The result of steps that were run. -/
def finished (prompt : Prompt) (browser : Text) (duration : Int) (steps : List StepResult) : Run :=
  let failed := steps.find? (·.status == StepResult.failed)
  { file := prompt.file, title := prompt.title, browser, success := failed.isNone, duration, steps
    error := failed.map fun f =>
      "Step ".toList ++ Text.ofInt f.step ++ " (" ++ f.description ++ "): " ++
        Execution.shown f.error }

/-- The result of a session that the browser ended. -/
def broken (prompt : Prompt) (browser : Text) (duration : Int) (f : Fault) : Run :=
  { file := prompt.file, title := prompt.title, browser, duration, error := some f.message }

/-- Runs a sequence on one browser. -/
def run (s : Setting) (seq : Sequence) (prompt : Prompt) (browser : Text) :
    Script (Except SessionError Run) := do
  Script.tell ("\n🌐 [".toList ++ browser ++ "] Processing: " ++ prompt.title)
  let start ← Script.now
  match ← (steps s seq browser).run with
  | .error f =>
    if f.isBrowser then
      Script.tell ("   ❌ Execution failed on ".toList ++ browser ++ ": " ++ f.message)
      let finish ← Script.now
      return .ok (broken prompt browser (finish - start) f)
    else return .error (.fault f)
  | .ok steps =>
    let finish ← Script.now
    let r := finished prompt browser (finish - start) steps
    match seconds? r.duration with
    | none => return .error .duration
    | some seconds =>
      let outcome : Text := if r.success then "✅ Success" else "❌ Failed"
      Script.tell ("   ".toList ++ outcome ++ " on " ++ browser ++ " (" ++ seconds ++ "s)")
      return .ok r

/-- Runs one session after the other and stops at the first without a result. -/
def inTurn (run : Text → Script (Except SessionError Run)) :
    List Text → Script (Except SessionError (List Run))
  | [] => return .ok []
  | b :: rest => do
    match ← run b with
    | .error e => return .error e
    | .ok r => return (← inTurn run rest).map (r :: ·)

/-- Runs every session, whatever becomes of the others; of the orders in which sessions can take
turns, this is the one in which each is through before the next. -/
def allOf (run : Text → Script (Except SessionError Run)) :
    List Text → Script (List (Except SessionError Run))
  | [] => return []
  | b :: rest => do
    let r ← run b
    return r :: (← allOf run rest)

/-- All results, or the first error among them. -/
def collect : List (Except SessionError Run) → Except SessionError (List Run)
  | [] => .ok []
  | r :: rest => do return (← r) :: (← collect rest)

/-- A share as a number of double precision; of nothing it is zero. -/
def share (part whole : Nat) : Binary64 :=
  if whole == 0 then .zero else Binary64.ofRatio false part whole

/-- The results of all browsers, and the share of those that succeeded. -/
structure Outcome where
  runs : List Run
  confidence : Binary64
  deriving DecidableEq, Repr

/-- The share of runs that succeeded. -/
def confidence (runs : List Run) : Binary64 := share (runs.countP (·.success)) runs.length

/-- Plays what was told before a script in front of it. -/
def telling {α : Type} (lines : List Text) (next : Script α) : Script α :=
  lines.foldr Script.say next

/-- Runs a sequence on every browser that is asked for, one after the other or side by side.

Side by side, sessions take turns, and the order of their turns is open. What is played here is one
of the possible orders, in which each session goes through to its end before the next one begins,
and of several errors the first in the order of the browsers is the outcome. In another order it can
be the error of another session, and the sessions that have not ended then go on; where that
matters, a result is stated over all orders of turns. -/
def runAll (s : Setting) (seq : Sequence) (prompt : Prompt) (requested : List Text)
    (parallel : Bool) :
    Script (Except SessionError Outcome) :=
  let chosen := selectBrowsers requested
  let browsers := chosen.value
  let sideBySide := parallel && 1 < browsers.length
  telling chosen.lines do
    Script.tell ("🔧 Execution mode: ".toList ++ if sideBySide then "Parallel" else "Sequential")
    let runs ← if sideBySide then collect <$> allOf (run s seq prompt) browsers
      else inTurn (run s seq prompt) browsers
    return runs.map fun runs => ⟨runs, confidence runs⟩

end Session

end PlainSteps
