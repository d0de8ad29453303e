import PlainSteps.Schema

/-! # Actions

What the runner does on a page: one browser action with the fields its kind needs, and sequences of
them.
-/

namespace PlainSteps

/-- The kinds of actions. -/
inductive ActionKind where
  | navigate
  | fill
  | click
  | wait
  | assert
  deriving DecidableEq, Repr

namespace ActionKind

/-- The word for a kind. -/
def word : ActionKind → Text
  | navigate => "navigate"
  | fill => "fill"
  | click => "click"
  | wait => "wait"
  | assert => "assert"

/-- All kinds. -/
def all : List ActionKind := [navigate, fill, click, wait, assert]

end ActionKind

/-- One browser action. Compiled actions have just the fields of their kind; an action that is read
from a record may have any. -/
structure Action where
  kind : ActionKind
  /-- The address for a navigation, else the element. -/
  target : Option Text := none
  value : Option Text := none
  condition : Option Text := none
  /-- Milliseconds. -/
  timeout : Option Int := none
  description : Text
  deriving DecidableEq, Repr

namespace Action

/-- Goes to an address. -/
def navigate (url description : Text) : Action :=
  { kind := .navigate, target := some url, description }

/-- Types a value into an element. -/
def fill (element value description : Text) : Action :=
  { kind := .fill, target := some element, value := some value, description }

/-- Clicks an element. -/
def click (element description : Text) : Action :=
  { kind := .click, target := some element, description }

/-- Waits for a number of milliseconds. -/
def wait (ms : Int) (description : Text) : Action :=
  { kind := .wait, timeout := some ms, description }

/-- Checks a condition of an element. -/
def assert (element condition description : Text) : Action :=
  { kind := .assert, target := some element, condition := some condition, description }

/-- A member of a record, if there is a value for it. -/
def member (name : Text) (value : Option Json) : List (Text × Json) :=
  match value with
  | some x => [(name, x)]
  | none => []

/-- An action as a record; absent fields are left out. -/
def toJson (a : Action) : Json :=
  .obj (("kind".toList, .str a.kind.word) ::
    member "target" (a.target.map .str) ++ member "value" (a.value.map .str) ++
    member "condition" (a.condition.map .str) ++ member "timeoutMs" (a.timeout.map .int) ++
    [("description".toList, .str a.description)])

open Schema in
/-- Reads an action. -/
def ofJson : Json → Checked Action :=
  record "Action" fun ms =>
    Action.mk <$> field "kind" (oneOf (ActionKind.all.map fun k => (k.word, k))) ms
      <*> fieldOr "target" none (optional text) ms
      <*> fieldOr "value" none (optional text) ms
      <*> fieldOr "condition" none (optional text) ms
      <*> fieldOr "timeout_ms" none (optional whole) ms
      <*> field "description" text ms

end Action

/-- Actions in the order in which they are run. -/
structure Sequence where
  actions : List Action := []
  deriving DecidableEq, Repr

namespace Sequence

/-- The kinds of the actions. -/
def kinds (s : Sequence) : List ActionKind := s.actions.map (·.kind)

/-- The action at a position; negative positions count from the end. -/
def at? (s : Sequence) (i : Int) : Option Action :=
  let n : Int := s.actions.length
  let i := if i < 0 then i + n else i
  if i < 0 then none else s.actions[i.toNat]?

/-- A sequence as a list of records. -/
def toJson (s : Sequence) : Json := .arr (s.actions.map Action.toJson)

open Schema in
/-- Reads a sequence. -/
def ofJson : Json → Checked Sequence :=
  record "ActionSequence" fun ms => Sequence.mk <$> fieldOr "actions" [] (tuple Action.ofJson) ms

end Sequence

end PlainSteps
