import PlainSteps.Action
import PlainSteps.Config.Basic
import PlainSteps.Dataset.Inline
import PlainSteps.Dataset.Source

/-! # Expansion

A data-driven step becomes one login for each row of its dataset, in order, with a pause between two
of them. A step without usable rows logs in once with the default credentials.
-/

namespace PlainSteps

open Pattern

namespace Dataset

/-- The dataset of a text: the rows it carries, or else those of the file it names. -/
def resolve (source : DataSource) (text : Text) : Told Dataset :=
  let rows := if Facts.hasInlineRow text then inlineRows text else []
  if !rows.isEmpty then do
    Told.say ("📋 Found ".toList ++ Text.ofNat rows.length ++ " inline test datasets")
    return ⟨.inline, rows⟩
  else match Facts.dataset? text with
    | none => return ⟨.inline, []⟩
    | some name => do
      match ← source.load name with
      | some dataset => return dataset
      | none =>
        Told.say ("⚠️  Dataset ".toList ++ name ++
          " unavailable - continuing with an empty dataset")
        return ⟨.external name, []⟩

end Dataset

namespace Expansion

/-- The pause after the login of a row. -/
def loginWait : Int := 3000

/-- The pause after a logout. -/
def logoutWait : Int := 2000

/-- The pause between two rows. -/
def rowWait : Int := 1000

/-- Words that ask for a logout after a login. -/
def logoutWords : Pattern :=
  wordOf (seq [letters "log", maybe (one Text.isBlank), maybe (letter '-'), letters "out"])

/-- The description of an action in a numbered place. -/
def step (label : Text) (what : Text) : Text := "Step ".toList ++ label ++ ": ".toList ++ what

/-- What is checked after the login of a row, and the logout if one is asked for. -/
def outcome (label expected : Text) (logout : Bool) : List Action :=
  if Text.includes "dashboard" expected then
    Action.assert "dashboard page" "visible"
      (step label "Verify dashboard is displayed for valid credentials") ::
      if logout then
        [Action.click "user dropdown menu" (step label "Click user dropdown menu"),
         Action.click "logout button" (step label "Click logout button"),
         Action.wait logoutWait (step label "Wait for logout to complete")]
      else []
  else if Text.includes "invalid" expected || Text.includes "error" expected then
    [Action.assert "error message" "contains:Invalid credentials"
      (step label "Verify error message for invalid credentials")]
  else []

/-- The login of one row. -/
def rowActions (config : Config) (row : Row) (label : Text) (logout : Bool) : List Action :=
  [Action.navigate config.baseUrl (step label "Navigate to login page"),
   Action.fill "username input field" row.username
     (step label ("Enter username \"".toList ++ row.username ++ "\"")),
   Action.fill "password input field" row.password
     (step label ("Enter password \"".toList ++ row.password ++ "\"")),
   Action.click "login button" (step label "Click login button"),
   Action.wait loginWait (step label "Wait for login response")] ++
  outcome label (Text.lower row.expected) logout

/-- The place of a row in a step. -/
def rowLabel (number : Int) (position : Nat) : Text :=
  Text.ofInt number ++ '.' :: Text.ofNat position

/-- The logins of rows, with a pause between neighbours; `position` is that of the first row. -/
def actionsOf (config : Config) (number : Int) (logout : Bool) : Nat → List Row → List Action
  | _, [] => []
  | position, [row] => rowActions config row (rowLabel number position) logout
  | position, row :: rest =>
    rowActions config row (rowLabel number position) logout ++
      Action.wait rowWait (step (rowLabel number position) "Wait before next test case") ::
      actionsOf config number logout (position + 1) rest

/-- The row of the default credentials. -/
def defaultRow (config : Config) : Row :=
  Row.ofTriple config.credentials.username config.credentials.password []

/-- The rows that are run for a dataset. -/
def usableRows (config : Config) (dataset : Dataset) : List Row :=
  if dataset.rows.isEmpty then [defaultRow config] else dataset.rows

/-- The actions of a data-driven step. -/
def expand (config : Config) (source : DataSource) (text : Text) (number : Int) :
    Told (List Action) := do
  let dataset ← Dataset.resolve source text
  if dataset.rows.isEmpty then
    Told.say ("⚠️  No usable rows from ".toList ++ dataset.origin.text ++
      ", using default credentials")
  return actionsOf config number (logoutWords.occursIn text) 1 (usableRows config dataset)

end Expansion

end PlainSteps
