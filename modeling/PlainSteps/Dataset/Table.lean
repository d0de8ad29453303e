import PlainSteps.Json.Basic

/-! # Tables

What is read from a data file: a header and records of the same width, whose cells may be missing.
Columns without a name are named for their position, and of equal names the later ones get a number.
-/

namespace PlainSteps

/-- A header and the records below it. -/
structure Table where
  header : List Text
  records : List (List (Option Text))
  deriving DecidableEq, Repr

namespace Table

/-- The name of a column without one. -/
def unnamed (position : Nat) : Text := "Unnamed: ".toList ++ Text.ofNat position

/-- A name with a number behind it. -/
def numbered (name : Text) (n : Nat) : Text := name ++ '.' :: Text.ofNat n

/-- How often each name was given out. -/
abbrev Counts := List (Text × Nat)

/-- How often a name was given out. -/
def Counts.of (counts : Counts) (name : Text) : Nat := (Json.lookup? name counts).getD 0

/-- A name not given out yet: the name itself or the name with the next number that no column
has. -/
def freshName (names : List Text) (name : Text) : Nat → Counts → Text → Nat → Text × Nat × Counts
  | 0, counts, candidate, count => (candidate, count, counts)
  | fuel + 1, counts, candidate, count =>
    if count == 0 then (candidate, count, counts)
    else
      let counts := Json.put name (count + 1) counts
      let candidate := numbered name count
      if names.contains candidate then freshName names name fuel counts candidate (count + 1)
      else freshName names name fuel counts candidate (Counts.of counts candidate)

/-- Gives the column at a position its final name. -/
def settleName (state : List Text × Counts) (position : Nat) : List Text × Counts :=
  let (names, counts) := state
  let name := names.getD position []
  let fuel := 2 * names.length + counts.foldl (fun n c => n + c.2) 0 + 2
  let (fresh, count, counts) := freshName names name fuel counts name (Counts.of counts name)
  (names.set position fresh, Json.put fresh (count + 1) counts)

/-- Distinct names for columns; the columns that have a name come before those that have none. -/
def distinctNames (given : List Text) : List Text :=
  let positions := List.range given.length
  let isNamed := fun i => !(given.getD i []).isEmpty
  let names := positions.map fun i => if isNamed i then given.getD i [] else unnamed i
  let order := positions.filter isNamed ++ positions.filter fun i => !isNamed i
  (order.foldl settleName (names, [])).1

end Table

end PlainSteps
