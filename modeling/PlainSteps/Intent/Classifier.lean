import PlainSteps.Intent.Rule
import PlainSteps.Told

/-! # Classification

Every text gets exactly one intent. A text of several steps keeps that intent only while it may
still be split, that is above the greatest depth and with at least two clauses.
-/

namespace PlainSteps

/-- The rules that are tried, and how often a text may be split. -/
structure Classifier where
  config : Config
  rules : List Rule := Rule.table
  maxDepth : Int := 2

/-- How a text is shown in a message. -/
def excerpt (text : Text) : Text := text.take 50

/-- A computation with a log that may end in an error. -/
abbrev Trying (ε : Type) := ExceptT ε Told

/-- Tells one line. -/
def Trying.say {ε : Type} (line : Text) : Trying ε Unit := ExceptT.lift (Told.say line)

namespace Classifier

open Facts

/-- The reading of a text by the first rule it sets off. -/
def readBy (c : Classifier) (depth : Int) (text : Text) (rule : Rule) :
    Trying DurationError Reading := do
  let findings ← ExceptT.mk (pure (rule.findings c.config text))
  if rule.intent = .complexWorkflow then
    if c.maxDepth ≤ depth then
      Trying.say ("   ⚠️  Decomposition depth ".toList ++ Text.ofInt depth ++
        " reached, classifying as unknown: \"" ++ excerpt text ++ "\"")
      return .unknown
    if findings.clauses.length < 2 then
      Trying.say ("   ⚠️  No separable clauses, classifying as unknown: \"".toList ++
        excerpt text ++ "\"")
      return .unknown
  return ⟨rule.intent, findings⟩

/-- The reading of a text that was reached by `depth` splits. -/
def classify (c : Classifier) (depth : Int) (text : Text) : Trying DurationError Reading :=
  let text := Text.trim text
  if text.isEmpty then return .unknown
  else match c.rules.find? (·.fires text) with
    | some rule => c.readBy depth text rule
    | none => return .unknown

end Classifier

end PlainSteps
