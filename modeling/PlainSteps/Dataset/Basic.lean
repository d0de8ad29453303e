import PlainSteps.Schema

/-! # Datasets

The rows a data-driven step runs over, and where they come from.
-/

namespace PlainSteps

/-- One row: its columns with their values, in order. -/
structure Row where
  fields : List (Text × Text)
  deriving DecidableEq, Repr

namespace Row

/-- The value of a column, empty when the row has none. -/
def value (r : Row) (column : Text) : Text := (Json.lookup? column r.fields).getD []

/-- The user name. -/
def username (r : Row) : Text := r.value "username"

/-- The password. -/
def password (r : Row) : Text := r.value "password"

/-- What a login with the row should lead to. -/
def expected (r : Row) : Text := r.value "expected"

/-- A row of the three columns. -/
def ofTriple (username password expected : Text) : Row :=
  ⟨[("username", username), ("password", password), ("expected", expected)]⟩

@[simp] theorem username_ofTriple (username password expected : Text) :
    (ofTriple username password expected).username = username := rfl

@[simp] theorem password_ofTriple (username password expected : Text) :
    (ofTriple username password expected).password = password := rfl

/-- Reads the fields of a row. -/
def ofJson (x : Json) : Checked Row :=
  (Schema.fieldOr "fields" [] (Schema.dictionary Schema.text) [("fields".toList, x)]).map Row.mk

end Row

/-- Where rows come from. -/
inductive Origin where
  | inline
  | external (name : Text)
  deriving DecidableEq, Repr

/-- An origin as messages name it. -/
def Origin.text : Origin → Text
  | inline => "inline"
  | external name => "external:".toList ++ name

/-- Rows in order, and where they come from. -/
structure Dataset where
  origin : Origin := .inline
  rows : List Row := []
  deriving DecidableEq, Repr

end PlainSteps
