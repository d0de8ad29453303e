import PlainSteps.Number.Numeral

/-! # JSON values

Values with objects as ordered lists of members, whole numbers of any size, and fractions of double
precision. A member written twice keeps its first place and its last value.
-/

namespace PlainSteps

/-- A JSON value. -/
inductive Json where
  | null
  | bool (b : Bool)
  | int (i : Int)
  | float (x : Binary64)
  | str (t : Text)
  | arr (items : List Json)
  | obj (members : List (Text × Json))
  deriving Repr

namespace Json

/-- Members of an object. -/
abbrev Members := List (Text × Json)

/-- The value of a member. -/
def lookup? {α : Type} (key : Text) (members : List (Text × α)) : Option α :=
  (members.find? (·.1 == key)).map (·.2)

/-- Sets a member: in its place if the key is there, else at the end. -/
def put {α : Type} (key : Text) (value : α) : List (Text × α) → List (Text × α)
  | [] => [(key, value)]
  | (k, v) :: rest => if k == key then (k, value) :: rest else (k, v) :: put key value rest

/-- Members in the order in which their keys first come, each with its last value. -/
def settle {α : Type} (members : List (Text × α)) : List (Text × α) :=
  members.foldl (fun acc m => put m.1 m.2 acc) []

/-- A member of a value, if the value is an object that has it. -/
def get? (key : Text) : Json → Option Json
  | obj members => lookup? key members
  | _ => none

/-- The text of a member, if it is one. -/
def textAt? (key : Text) (x : Json) : Option Text :=
  match x.get? key with
  | some (str t) => some t
  | _ => none

/-- The number of a member, if it is a whole one. -/
def intAt? (key : Text) (x : Json) : Option Int :=
  match x.get? key with
  | some (int i) => some i
  | _ => none

/-- Whether a member is true. -/
def isTrueAt (key : Text) (x : Json) : Bool :=
  match x.get? key with
  | some (bool b) => b
  | _ => false

/-- The items of a member, if it is a list. -/
def itemsAt? (key : Text) (x : Json) : Option (List Json) :=
  match x.get? key with
  | some (arr xs) => some xs
  | _ => none

/-- The members of a member; none if it is no object. -/
def membersAt (key : Text) (x : Json) : Members :=
  match x.get? key with
  | some (obj ms) => ms
  | _ => []

/-- A text as a value, or null. -/
def optStr : Option Text → Json
  | none => null
  | some t => str t

/-- Texts as a list. -/
def strs (ts : List Text) : Json := arr (ts.map str)

/-- A natural number as a value. -/
def nat (n : Nat) : Json := int n

/-- An object from keys as they are written in a program. -/
def record (members : List (String × Json)) : Json := obj (members.map fun m => (m.1.toList, m.2))

end Json

end PlainSteps
