import PlainSteps.Facts.Labelled

/-! # What a step acts on

The element that a click means and the check that a verification asks for.
-/

namespace PlainSteps.Facts

open Pattern

/-- The target of a click that names no known element. -/
def defaultClickTarget : Text := "clickable element"

/-- The element a click means: that of the first rule that fires. -/
def clickTarget (config : Config) (text : Text) : Text :=
  match config.clickTargets.find? (·.fires text) with
  | some rule => rule.element
  | none => defaultClickTarget

/-- A check: what is looked at, what must hold, and how a report names it. -/
structure Verification where
  element : Text
  condition : Text
  description : Text
  deriving DecidableEq, Repr

/-- The check of a verification that names no known element. -/
def defaultVerification : Verification := ⟨"page content", "visible", "page content is visible"⟩

/-- A text between double quotes, kept under 1. -/
def quotedText : Pattern := seq [letter '"', group 1 (oneOrMore (allBut '"')), letter '"']

/-- Words that ask for something not to be seen. -/
def hiddenWords : Pattern :=
  wordOf (choice
    [letters "hidden",
     seq [letters "not", oneOrMore Text.isBlank, maybe (seq [letters "be", oneOrMore Text.isBlank]),
       choice [letters "visible", letters "displayed", letters "shown"]]])

/-- The check a rule asks for. -/
def checkOf (r : KeywordRule) : Verification :=
  ⟨r.element, r.condition,
    if r.description.isEmpty then r.element ++ " is " ++ r.condition else r.description⟩

/-- The check a text asks for. A quoted text is to be contained in the element; else words for
hiding turn the check round. -/
def verification (config : Config) (text : Text) : Verification :=
  let base := match config.verificationTargets.find? (·.fires text) with
    | some rule => checkOf rule
    | none => defaultVerification
  match quotedText.find? text with
  | some f =>
    { base with
      condition := "contains:".toList ++ f.group 1
      description := base.element ++ " contains \"" ++ f.group 1 ++ "\"" }
  | none =>
    if hiddenWords.occursIn text then
      { base with condition := "hidden", description := base.element ++ " is hidden" }
    else base

/-- The words for conditions, in the order in which they are looked for. -/
def conditionWords : List Text := ["visible", "hidden", "enabled", "disabled", "contains"]

/-- The words of a list that stand in the text, in any case. -/
def wordsIn (words : List Text) (text : Text) : List Text :=
  let lowered := Text.lower text
  words.filter (Text.includes · lowered)

/-- The conditions a text speaks of. -/
def verificationConditions (text : Text) : List Text := wordsIn conditionWords text

end PlainSteps.Facts
