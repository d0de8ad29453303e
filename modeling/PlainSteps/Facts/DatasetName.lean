import PlainSteps.Config.Basic

/-! # Datasets in a step

Whether a step runs over the rows of a dataset: it names a data file, or carries labelled rows
itself.
-/

namespace PlainSteps.Facts

open Pattern

/-- Characters of the name of a data file before its extension. -/
def isNameChar (c : Char) : Bool := Text.isWord c || c == '-'

/-- The name of a data file, kept under 1. -/
def datasetFile : Pattern :=
  wordOf (group 1 (seq
    [oneOrMore isNameChar, letter '.', choice [letters "csv", letters "xlsx", letters "xls"]]))

/-- The first data file a text names. -/
def dataset? (text : Text) : Option Text := (datasetFile.find? text).map (·.group 1)

/-- The labels of a row. -/
def rowLabels : List Text := ["username", "password", "expected"]

/-- A label with a colon. -/
def rowLabel (label : Text) : Pattern :=
  seq [edge true, letters label, many Text.isBlank, letter ':']

/-- Whether a text carries all labels of a row. -/
def hasInlineRow (text : Text) : Bool := rowLabels.all fun label => (rowLabel label).occursIn text

/-- Phrases that tell how rows are run, and the words for them. -/
def modifierPhrases : List (Text × Text) :=
  [("iteration", "iterate"), ("multiple", "multiple"), ("each row", "per_row")]

/-- How a text asks to run the rows. -/
def modifiers (text : Text) : List Text :=
  let lowered := Text.lower text
  (modifierPhrases.filter fun m => Text.includes m.1 lowered).map (·.2)

end PlainSteps.Facts
