import PlainSteps.Config.Basic

/-! # Labelled values in a step

Values that stand behind a label: credentials as in `username: Admin`, and the fields of a form as
in `first name = "John"`.
-/

namespace PlainSteps.Facts

open Pattern

/-- A colon or an equals sign. -/
def isAssign (c : Char) : Bool := c == ':' || c == '='

/-- Any characters but the given one. -/
def allBut (c : Char) (d : Char) : Bool := d != c

/-- The characters of a value without quotes. -/
def isBare (c : Char) : Bool := !(Text.isBlank c || c == ',' || c == ';' || c == '"' || c == '\x27')

/-! ### Credentials -/

/-- A label, a colon or equals sign, and a value: between double quotes (kept under 1), between
single quotes (under 2) or bare (under 3). -/
def labelled (label : Text) : Pattern :=
  seq [edge true, letters label, many Text.isBlank, one isAssign, many Text.isBlank,
    choice
      [seq [letter '"', group 1 (many (allBut '"')), letter '"'],
       seq [letter '\x27', group 2 (many (allBut '\x27')), letter '\x27'],
       group 3 (oneOrMore isBare)]]

/-- Punctuation that ends a sentence behind a bare value. -/
def isClosing (c : Char) : Bool := c == '.' || c == ':' || c == ')' || c == ']'

/-- The value behind a label. -/
def labelledValue? (label text : Text) : Option Text :=
  ((labelled label).find? text).map fun f =>
    match f.group? 3 with
    | some bare => Text.trimRightOf isClosing bare
    | none => (f.group? 1).getD (f.group 2)

/-- The credentials a text gives, each part that it does not give taken from the configuration. -/
def credentials (config : Config) (text : Text) : Credentials where
  username := (labelledValue? "username" text).getD config.credentials.username
  password := (labelledValue? "password" text).getD config.credentials.password

/-! ### Form fields -/

/-- A value for a field of a form. -/
structure FormField where
  label : Text
  element : Text
  value : Text
  deriving DecidableEq, Repr

/-- A label, perhaps a colon, an equals sign or the word "as", and a value between double quotes. -/
def fieldOf (label : Text) : Pattern :=
  seq [edge true, letters label, many Text.isBlank,
    maybe (choice [one isAssign, wordOf (letters "as")]),
    many Text.isBlank, letter '"', group 1 (many (allBut '"')), letter '"']

/-- The fields with one label, with their positions. -/
def fieldsOf (text : Text) (label element : Text) : List (Nat × FormField) :=
  (withStarts ((fieldOf label).findAll text)).map fun (start, f) =>
    (start, ⟨label, element, f.group 1⟩)

/-- The values for known fields in the order in which they stand in the text. -/
def formFields (config : Config) (text : Text) : List FormField :=
  let found := config.formFields.flatMap fun (label, element) => fieldsOf text label element
  (found.mergeSort fun a b => a.1 ≤ b.1).map (·.2)

/-- The labels of known fields that stand in the text. -/
def fieldNames (config : Config) (text : Text) : List Text :=
  let lowered := Text.lower text
  (config.formFields.map (·.1)).filter (Text.includes · lowered)

end PlainSteps.Facts
