import PlainSteps.Pattern.Search

/-! # Application configurations

What the compiler and the runner know about the application under test: where it starts, who logs
in, how its elements are found on a page, and which words of a step name which element.
-/

namespace PlainSteps

/-- The ways to find an element on a page. -/
inductive StrategyKind where
  /-- A selector of attributes. -/
  | selector
  /-- A role and a pattern for the accessible name. -/
  | role
  /-- A pattern for the label. -/
  | label
  /-- A pattern for the placeholder. -/
  | placeholder
  /-- A pattern for the visible text. -/
  | text
  /-- A pattern for the address of the page itself. -/
  | url
  deriving DecidableEq, Repr

/-- The word for a way to find an element. -/
def StrategyKind.word : StrategyKind → Text
  | selector => "attribute"
  | role => "role"
  | label => "label"
  | placeholder => "placeholder"
  | text => "text"
  | url => "url"

/-- All ways to find an element. -/
def StrategyKind.all : List StrategyKind := [selector, role, label, placeholder, text, url]

/-- One way to find an element. -/
structure Strategy where
  kind : StrategyKind
  pattern : Text
  role : Option Text := none
  deriving DecidableEq, Repr

/-- A strategy as logs and reports name it. -/
def Strategy.describe (s : Strategy) : Text :=
  match s.kind with
  | .role => "role=".toList ++ s.role.getD "None" ++ " name~/" ++ s.pattern ++ "/"
  | kind => kind.word ++ "=" ++ s.pattern

/-- A user name and a password. -/
structure Credentials where
  username : Text := []
  password : Text := []
  deriving DecidableEq, Repr

/-- An element that a step means when all keywords stand in its text as words. -/
structure KeywordRule where
  keywords : List Text
  element : Text
  condition : Text := "visible"
  description : Text := []
  deriving DecidableEq, Repr

/-- Whether a keyword stands in a text as a word, in any case. -/
def hasKeyword (text keyword : Text) : Bool :=
  (Pattern.wordOf (Pattern.letters keyword)).occursIn text

/-- Whether a rule fires on a text. -/
def KeywordRule.fires (r : KeywordRule) (text : Text) : Bool := r.keywords.all (hasKeyword text)

/-- An application configuration. Elements and form fields keep the order in which they are
declared. -/
structure Config where
  name : Text
  version : Text := "1.0"
  description : Text := []
  baseUrl : Text
  credentials : Credentials := {}
  elements : List (Text × List Strategy) := []
  formFields : List (Text × Text) := []
  clickTargets : List KeywordRule := []
  verificationTargets : List KeywordRule := []
  navigationElements : List Text := []
  dataDir : Text := "test-data"
  browsers : List Text := ["chromium"]
  headless : Bool := true
  strategyTimeout : Int := 2000
  deriving DecidableEq, Repr

/-- The strategies declared for an element: by its exact name, or else by the first name that is
equal in lower case. -/
def Config.strategiesFor (c : Config) (element : Text) : List Strategy :=
  match c.elements.find? (·.1 == element) with
  | some (_, strategies) => strategies
  | none =>
    match c.elements.find? fun e => Text.lower e.1 == Text.lower element with
    | some (_, strategies) => strategies
    | none => []

/-- Whether a click on an element leads to another page. -/
def Config.triggersNavigation (c : Config) (element : Text) : Bool :=
  c.navigationElements.any fun e => Text.lower e == Text.lower element

end PlainSteps
