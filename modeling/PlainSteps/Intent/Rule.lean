import PlainSteps.Intent.Basic
import PlainSteps.Facts.Address
import PlainSteps.Facts.DatasetName
import PlainSteps.Facts.Duration

/-! # The rules of intent

The intents in their fixed order of precedence, each with what sets it off and the facts it reads. A
text has the intent of the first rule it sets off; the last rule is set off by every text.
-/

namespace PlainSteps

open Pattern Facts

/-- What sets an intent off, and the facts it reads. -/
structure Rule where
  intent : Intent
  fires : Text → Bool
  findings : Config → Text → Except DurationError Findings

namespace Rule

/-! ### Triggers -/

/-- Whether one of some words stands in a text. -/
def mentions (words : List String) (text : Text) : Bool :=
  (wordOf (choice (words.map fun w : String => letters w.toList))).occursIn text

/-- Whether a text runs over the rows of a dataset. -/
def isDataDriven (text : Text) : Bool := (dataset? text).isSome || hasInlineRow text

/-- The count of words above which a text is taken for several steps. -/
def longStep : Nat := 10

/-- Whether a text holds several steps. -/
def isCompound (text : Text) : Bool :=
  let lowered := ' ' :: Text.lower text ++ [' ']
  Text.includes " and " lowered || Text.includes " then " lowered || longStep <
    (Text.words text).length

/-! ### Clauses -/

/-- What stands between two clauses. -/
def clauseBreak : Pattern :=
  seq [maybe (letter ','), oneOrMore Text.isBlank, choice [letters "and", letters "then"],
    oneOrMore Text.isBlank]

/-- Punctuation around a clause. -/
def isClauseEnd (c : Char) : Bool := c == ' ' || c == ',' || c == '.'

/-- The clauses of a text. -/
def clauses (text : Text) : List Text :=
  ((clauseBreak.split text).map (Text.trimOf isClauseEnd)).filter (!·.isEmpty)

/-! ### The table -/

/-- A rule whose facts can always be read. -/
def always (intent : Intent) (fires : Text → Bool) (findings : Config → Text → Findings) : Rule :=
  ⟨intent, fires, fun config text => .ok (findings config text)⟩

/-- Steps over the rows of a dataset. -/
def dataDriven : Rule := always .dataDrivenTest isDataDriven fun _ text =>
  { elements := [(dataset? text).getD "inline"], modifiers := modifiers text }

/-- Steps that go to an address. -/
def navigate : Rule :=
  always .navigate (mentions ["navigate", "open", "go to", "visit"]) fun config text =>
  { elements := urls text, values := [url config text] }

/-- Steps that log in. -/
def login : Rule :=
  always .login
    (mentions ["login", "log in", "sign in", "authenticate", "credentials", "credential"])
    fun config text =>
      let found := credentials config text
      { elements := ["username input field", "password input field"],
        values := [found.username, found.password] }

/-- Steps that fill in a form. -/
def fillForm : Rule :=
  always .fillForm (mentions ["enter", "input", "type", "fill", "provide"]) fun config text =>
  let fields := formFields config text
  { elements := fields.map (·.element), values := fields.map (·.value),
    modifiers := fields.map (·.label) }

/-- Steps that click. -/
def click : Rule :=
  always .clickElement (mentions ["click", "press", "select", "choose", "tap"]) fun config text =>
  { elements := [clickTarget config text] }

/-- Steps that check. -/
def verify : Rule :=
  always .verifyElement (mentions ["verify", "check", "confirm", "validate", "assert"])
    fun config text =>
    let v := verification config text
    { elements := [v.element], conditions := [v.condition], modifiers := [v.description] }

/-- Steps that wait. -/
def wait : Rule := ⟨.waitAction, mentions ["wait", "pause", "delay"], fun _ text =>
  (Facts.wait text).map fun ms => { values := [Text.ofInt ms], modifiers := waitConditions text }⟩

/-- Steps that are several in one. -/
def compound : Rule := always .complexWorkflow isCompound fun _ text => { clauses := clauses text }

/-- All other steps. -/
def other : Rule := always .unknown (fun _ => true) fun _ _ => {}

/-- The rules in their order of precedence. -/
def table : List Rule :=
  [dataDriven, navigate, login, fillForm, click, verify, wait, compound, other]

end Rule

end PlainSteps
