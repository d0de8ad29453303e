import PlainSteps.Facts.Target
import PlainSteps.Number.Numeral

/-! # How long a step waits

Durations such as `500ms`, `3 s` or `2.5 seconds`, in milliseconds. The amount is read to double
precision and the fraction of a millisecond is cut off.
-/

namespace PlainSteps.Facts

open Pattern

/-- The duration of a wait that gives none. -/
def defaultWait : Int := 2000

/-- An amount, kept under 1, and a unit, kept under 2. -/
def duration : Pattern :=
  seq [group 1 (seq [oneOrMore Text.isDigit, maybe (seq [letter '.', oneOrMore Text.isDigit])]),
    many Text.isBlank,
    group 2 (choice
      [seq [letters "millisecond", maybe (letter 's')], letters "ms",
       seq [letters "second", maybe (letter 's')],
         seq [letters "sec", maybe (letter 's')], letter 's']),
    edge true]

/-- A duration beyond every number of double precision. -/
inductive DurationError where
  | infinite
  deriving DecidableEq, Repr

/-- The message for a duration that is no number. -/
def DurationError.message : DurationError → Text
  | infinite => "cannot convert float infinity to integer"

/-- The milliseconds a text asks to wait. -/
def wait (text : Text) : Except DurationError Int :=
  match duration.find? text with
  | none => .ok defaultWait
  | some f =>
    let amount := Numeral.fraction (f.group 1)
    let scaled :=
      if Text.startsWith ['m'] (Text.lower (f.group 2)) then amount
        else amount.mul (Binary64.ofInt 1000)
    match scaled.truncate? with
    | some ms => .ok ms
    | none => .error .infinite

/-- What a wait may be for. -/
def waitWords : List Text := ["load", "appear", "disappear", "complete"]

/-- What a text waits for. -/
def waitConditions (text : Text) : List Text := wordsIn waitWords text

end PlainSteps.Facts
