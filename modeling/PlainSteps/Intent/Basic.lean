import PlainSteps.Text.Basic

/-! # Intents

What a step of a prompt wants, and the facts found in it that say how.
-/

namespace PlainSteps

/-- What a step wants. -/
inductive Intent where
  | dataDrivenTest
  | navigate
  | login
  | fillForm
  | clickElement
  | verifyElement
  | waitAction
  | complexWorkflow
  | unknown
  deriving DecidableEq, Repr

namespace Intent

/-- The name of an intent. -/
def name : Intent → Text
  | dataDrivenTest => "data_driven_test"
  | navigate => "navigate"
  | login => "login"
  | fillForm => "fill_form"
  | clickElement => "click_element"
  | verifyElement => "verify_element"
  | waitAction => "wait_action"
  | complexWorkflow => "complex_workflow"
  | unknown => "unknown"

/-- All intents, in the order in which their rules are tried. -/
def all : List Intent :=
  [dataDrivenTest, navigate, login, fillForm, clickElement, verifyElement, waitAction,
    complexWorkflow, unknown]

/-- The intent of a name; any other name is unknown. -/
def ofName (t : Text) : Intent := (all.find? fun i => i.name == t).getD unknown

end Intent

/-- The facts found in a step, each list in the order of the text. -/
structure Findings where
  elements : List Text := []
  values : List Text := []
  conditions : List Text := []
  modifiers : List Text := []
  clauses : List Text := []
  deriving DecidableEq, Repr

/-- The intent of a step and the facts that go with it. -/
structure Reading where
  intent : Intent := .unknown
  findings : Findings := {}
  deriving DecidableEq, Repr

/-- The reading of a step that nothing is known of. -/
def Reading.unknown : Reading := {}

end PlainSteps
