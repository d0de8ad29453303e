import PlainSteps.Browser.Script

/-! # Finding elements

An element is looked for by its strategies in their order; the first that succeeds decides. A
strategy fails when the browser says so, be it a timeout or another of its errors.
-/

namespace PlainSteps

/-- Why an action fails. -/
inductive StepError where
  /-- Every strategy of the element failed. -/
  | notFound (element : Text) (tried : List Text)
  /-- An element that should be hidden is there. -/
  | visible (element : Text)
  /-- The text of an element lacks what it should contain. -/
  | lacks (element expected : Text)
  | fault (f : Fault)
  /-- A strategy's pattern is none. -/
  | pattern (message : Text)
  /-- An action on an element names none. -/
  | noTarget
  deriving DecidableEq, Repr

/-- The message for a failed action. -/
def StepError.message : StepError → Text
  | notFound element tried =>
    "Element not found: \"".toList ++ element ++ "\" (tried " ++
      Text.ofNat tried.length ++ " strategies)"
  | visible element => "Expected \"".toList ++ element ++ "\" to be hidden but it is visible"
  | lacks element expected => '"' :: element ++ "\" does not contain \"" ++ expected ++ "\""
  | fault f => f.message
  | pattern message => message
  | noTarget => "'NoneType' object has no attribute 'lower'"

/-- A script that may fail as an action does. -/
abbrev Acting := ExceptT StepError Script

namespace Acting

/-- Tells one line. -/
def tell (line : Text) : Acting Unit := ExceptT.lift (Script.tell line)

/-- Makes a request; its faults are those of the action. -/
def request (q : Request) : Acting q.Reply := ExceptT.mk do
  return (← Script.request q).mapError .fault

end Acting

namespace Locator

/-- The strategies tried for an element; one that nothing is declared for is looked for by its own
words. -/
def strategies (config : Application) (element : Text) : List Strategy :=
  let declared := config.strategiesFor element
  if declared.isEmpty then [⟨.text, Pattern.escape element, none⟩] else declared

/-- The query of a strategy that looks for an element. -/
def query (s : Strategy) : Query :=
  match s.kind with
  | .selector => .selector s.pattern
  | .role =>
    let role := s.role.getD []
    .role (if role.isEmpty then "generic".toList else role) s.pattern
  | .label => .label s.pattern
  | .placeholder => .placeholder s.pattern
  | _ => .text s.pattern

/-- Whether a strategy has a written pattern, which must be one. -/
def checkPattern (config : Application) (s : Strategy) : Except StepError Unit :=
  if s.kind = .selector then .ok ()
  else (config.libraries.pattern s.pattern).mapError .pattern

/-- Tries one strategy. The page itself is found by its address and has no query. -/
def attempt (config : Application) (element : Text) (s : Strategy) : Acting (Option Query) := do
  ExceptT.mk (pure (checkPattern config s))
  if s.kind = .url then
    Acting.request (.awaitUrl s.pattern config.strategyTimeout)
    Acting.tell ("   ✅ \"".toList ++ element ++ "\" matched page with strategy: " ++ s.describe)
    return none
  else
    Acting.request (.awaitVisible (query s) config.strategyTimeout)
    Acting.tell ("   ✅ \"".toList ++ element ++ "\" found with strategy: " ++ s.describe)
    return some (query s)

/-- Whether an attempt failed by the browser's own doing. -/
def isBrowserFault : StepError → Bool
  | .fault f => f.isBrowser
  | _ => false

/-- Tries strategies in order after those already tried. -/
def tryEach (config : Application) (element : Text) (tried : List Text) :
    List Strategy → Acting (Option Query)
  | [] => throw (.notFound element tried)
  | s :: rest => ExceptT.mk do
    match ← (attempt config element s).run with
    | .ok found => return .ok found
    | .error e =>
      if isBrowserFault e then
        Script.tell ("   ❌ Strategy failed: ".toList ++ s.describe)
        (tryEach config element (tried ++ [s.describe]) rest).run
      else return .error e

/-- Finds an element; nothing is the page itself. -/
def resolve (config : Application) (element : Text) : Acting (Option Query) :=
  tryEach config element [] (strategies config element)

end Locator

end PlainSteps
