import PlainSteps.Dataset.Basic
import PlainSteps.Facts.DatasetName

/-! # Rows inside a prompt

A row may stand on one line, its three parts joined by commas. When no line holds a whole row,
labels are collected over the lines, and a row is complete as soon as all three are there.
-/

namespace PlainSteps.Dataset

open Pattern

/-- A value without the white space and the quotes around it. -/
def clean (t : Text) : Text :=
  Text.trim (Text.trimOf (fun c => c == '"' || c == '\x27') (Text.trim t))

/-- A label with its colon and the blanks around that. -/
def label (name : Text) : Pattern :=
  seq [letters name, many Text.isBlank, letter ':', many Text.isBlank]

/-- Any characters but commas. -/
def noComma (c : Char) : Bool := c != ','

/-- A value up to the next comma, kept under a number, and that comma. -/
def valueUpToComma (n : Nat) : Pattern :=
  seq [group n (seq [one noComma, few noComma]), many Text.isBlank, letter ',']

/-- A whole row on one line. -/
def lineRow : Pattern :=
  seq [label "username", valueUpToComma 1, few inLine, label "password",
    valueUpToComma 2, few inLine, label "expected", group 3 (oneOrMore inLine)]

/-- The row on a line, if it holds a whole one. -/
def rowOfLine? (line : Text) : Option Row :=
  (lineRow.find? line).map fun f => Row.ofTriple (clean (f.group 1)) (clean (f.group 2))
    (clean (f.group 3))

/-- Characters of a user name or password in a block. -/
def isToken (c : Char) : Bool := !(c == ',' || Text.isBlank c || c == '"')

/-- A label and one token, perhaps between double quotes. -/
def tokenLabel (name : Text) : Pattern :=
  seq [edge true, label name, maybe (letter '"'), group 1 (oneOrMore isToken), maybe (letter '"')]

/-- A label and the rest of its line. -/
def restLabel (name : Text) : Pattern := seq [edge true, label name, group 1 (oneOrMore inLine)]

/-- The labels of a block, each with the pattern of its line. -/
def blockLabels : List (Text × Pattern) :=
  [("username", tokenLabel "username"), ("password", tokenLabel "password"),
    ("expected", restLabel "expected")]

/-- The values collected so far with those of a line added. -/
def addLine (current : List (Text × Text)) (line : Text) : List (Text × Text) :=
  blockLabels.foldl (fun acc (name, p) =>
    match p.find? line with
    | some f => Json.put name (clean (f.group 1)) acc
    | none => acc) current

/-- Whether all three labels are there. -/
def isComplete (current : List (Text × Text)) : Bool :=
  blockLabels.all fun (name, _) => current.any (·.1 == name)

/-- The rows of a block of lines; an incomplete row at the end is dropped. -/
def blockRows (current : List (Text × Text)) : List Text → List Row
  | [] => []
  | line :: rest =>
    let current := addLine current line
    if isComplete current then ⟨current⟩ :: blockRows [] rest else blockRows current rest

/-- The rows written in a text. -/
def inlineRows (text : Text) : List Row :=
  let lines := Text.lines text
  let rows := lines.filterMap rowOfLine?
  if rows.isEmpty then blockRows [] lines else rows

end PlainSteps.Dataset
