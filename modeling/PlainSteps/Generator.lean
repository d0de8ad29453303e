import PlainSteps.Dataset.Expansion
import PlainSteps.Intent.Classifier

/-! # From intents to actions

Each intent has a template that its facts fill in. The clauses of a text that holds several steps
are classified and generated on their own, one level deeper; the classifier lets that happen only
below its greatest depth, which bounds the recursion.
-/

namespace PlainSteps

/-- Why a text has no actions. -/
inductive GenerationError where
  | duration (e : Facts.DurationError)
  | number (e : Numeral.WholeError)
  deriving DecidableEq, Repr

/-- The message for a text without actions. -/
def GenerationError.message : GenerationError → Text
  | duration e => e.message
  | number e => e.message

/-- What generation depends on. -/
structure Generator where
  classifier : Classifier
  source : DataSource

namespace Generator

/-- The configuration of a generator. -/
def config (g : Generator) : Config := g.classifier.config

/-- The pause after a login. -/
def loginWait : Int := 3000

/-- The pause after a click that leads to another page. -/
def navigationWait : Int := 2000

/-- The description of an action in a step. -/
def step (number : Int) (what : Text) : Text :=
  "Step ".toList ++ Text.ofInt number ++ ": ".toList ++ what

/-! ### Templates -/

/-- Goes to the address found. -/
def navigation (config : Config) (number : Int) (f : Findings) : List Action :=
  let url := f.values.headD config.baseUrl
  [Action.navigate url (step number ("Navigate to ".toList ++ url))]

/-- Logs in with the credentials found. -/
def login (config : Config) (number : Int) (f : Findings) : List Action :=
  let (username, password) := match f.values with
    | [u, p] => (u, p)
    | _ => (config.credentials.username, config.credentials.password)
  [Action.fill "username input field" username (step number "Enter username"),
   Action.fill "password input field" password (step number "Enter password"),
   Action.click "login button" (step number "Click login button"),
   Action.wait loginWait (step number "Wait for login to complete")]

/-- Fills in the fields found. -/
def form (number : Int) (f : Findings) : List Action :=
  (f.elements.zip (f.values.zip f.modifiers)).map fun (element, value, label) =>
    Action.fill element value (step number ("Enter ".toList ++ label))

/-- Clicks the element found, and waits when that leads to another page. -/
def click (config : Config) (number : Int) (f : Findings) : List Action :=
  let element := f.elements.headD Facts.defaultClickTarget
  Action.click element (step number ("Click ".toList ++ element)) ::
    if config.triggersNavigation element then
      [Action.wait navigationWait (step number "Wait for page transition")]
    else []

/-- Checks the condition found. -/
def verification (number : Int) (f : Findings) : List Action :=
  let base := Facts.defaultVerification
  [Action.assert (f.elements.headD base.element) (f.conditions.headD base.condition)
    (step number ("Verify ".toList ++ f.modifiers.headD base.description))]

/-- Waits as long as found. -/
def wait (number : Int) (f : Findings) : Except GenerationError (List Action) :=
  let duration : Except GenerationError Int := match f.values with
    | [] => .ok Facts.defaultWait
    | t :: _ => (Numeral.whole t).mapError .number
  duration.map fun ms => [Action.wait ms (step number ("Wait ".toList ++ Text.ofInt ms ++ "ms"))]

/-- The actions of an intent, given those of the clauses. -/
def fillIn (g : Generator) (number : Int) (text : Text) (r : Reading)
    (ofClauses : List Text → Trying GenerationError (List Action)) :
    Trying GenerationError (List Action) :=
  match r.intent with
  | .dataDrivenTest => ExceptT.lift (Expansion.expand g.config g.source text number)
  | .navigate => return navigation g.config number r.findings
  | .login => return login g.config number r.findings
  | .fillForm => return form number r.findings
  | .clickElement => return click g.config number r.findings
  | .verifyElement => return verification number r.findings
  | .waitAction => ExceptT.mk (pure (wait number r.findings))
  | .complexWorkflow => ofClauses r.findings.clauses
  | .unknown => return []

/-- The reading of a text. -/
def classify (g : Generator) (depth : Int) (text : Text) : Trying GenerationError Reading :=
  ExceptT.adapt .duration (g.classifier.classify depth text)

/-- The actions of each text in order. -/
def each (f : Text → Trying GenerationError (List Action)) :
    List Text → Trying GenerationError (List Action)
  | [] => return []
  | t :: rest => do return (← f t) ++ (← each f rest)

/-- The actions of a text that was reached by `depth` splits and may be split `left` times more. -/
def generateWithin (g : Generator) (number : Int) :
    Nat → Int → Text → Trying GenerationError (List Action)
  | 0, depth, text => do
    let r ← g.classify depth text
    g.fillIn number text r fun _ => return []
  | left + 1, depth, text => do
    let r ← g.classify depth text
    g.fillIn number text r (each (g.generateWithin number left (depth + 1)))

/-- How often a text at a depth may still be split. -/
def splitsLeft (g : Generator) (depth : Int) : Nat := (g.classifier.maxDepth - depth).toNat

/-- The actions of a text. -/
def generate (g : Generator) (number depth : Int) (text : Text) :
    Trying GenerationError (List Action) :=
  g.generateWithin number (g.splitsLeft depth) depth text

/-- The actions of a reading that is given. -/
def generateReading (g : Generator) (number depth : Int) (text : Text) (r : Reading) :
    Trying GenerationError (List Action) :=
  g.fillIn number text r (each (g.generate number (depth + 1)))

end Generator

end PlainSteps
