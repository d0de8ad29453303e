import PlainSteps.Text.Basic

/-! # Moments

A date with a time of day, as names of files and reports write it.
-/

namespace PlainSteps

/-- A date with a time of day. -/
structure Moment where
  year : Nat
  month : Nat
  day : Nat
  hour : Nat
  minute : Nat
  second : Nat
  deriving DecidableEq, Repr

namespace Moment

/-- Two digits. -/
def two (n : Nat) : Text := Text.ofIntPadded 2 n

/-- A moment in the name of a file. -/
def stamp (m : Moment) : Text :=
  Text.ofIntPadded 4 m.year ++ two m.month ++ two m.day ++ '_' :: two m.hour ++
    two m.minute ++ two m.second

/-- A moment in a report. -/
def readable (m : Moment) : Text :=
  Text.ofIntPadded 4 m.year ++ '-' :: two m.month ++ '-' :: two m.day ++ ' ' :: two m.hour ++
    ':' :: two m.minute ++ ':' :: two m.second

example : stamp ⟨2024, 1, 2, 3, 4, 5⟩ = "20240102_030405".toList := by decide
example : readable ⟨2024, 1, 2, 3, 4, 5⟩ = "2024-01-02 03:04:05".toList := by decide

end Moment

end PlainSteps
