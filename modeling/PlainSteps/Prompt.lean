import PlainSteps.Files.Path
import PlainSteps.Pattern.Search

/-! # Prompts

A prompt is a text with instructions. Lines in front of them may give it a title and tags; what they
do not give is taken from the file's name and from the content. Its numbered lines are the steps.
-/

namespace PlainSteps

/-- A prompt, its metadata apart from its body. -/
structure Prompt where
  file : Text := []
  title : Text := []
  tags : List Text := []
  body : Text := []
  deriving DecidableEq, Repr

/-- One step of a body. -/
structure StepUnit where
  index : Nat
  text : Text
  deriving DecidableEq, Repr

namespace Prompt

/-! ### Metadata -/

/-- What the lines of the head gave so far, and the lines behind it. -/
structure Head where
  title : Text := []
  tags : List Text := []
  body : List Text := []
  deriving DecidableEq, Repr

/-- The tags of a comma-separated list. -/
def tagsOf (t : Text) : List Text := ((Text.splitOn ',' t).map Text.trim).filter (!·.isEmpty)

/-- Reads the head of a prompt; the first line that belongs to none of its forms begins the body. -/
def readHead (h : Head) : List Text → Head
  | [] => h
  | line :: rest =>
    let stripped := Text.trim line
    let lowered := Text.lower stripped
    if stripped.isEmpty then readHead h rest
    else if Text.startsWith "title:" lowered then
      readHead { h with title := Text.trim (stripped.drop 6) } rest
    else if Text.startsWith "tags:" lowered then
      readHead { h with tags := tagsOf (stripped.drop 5) } rest
    else if Text.startsWith "# " stripped && h.title.isEmpty then
      readHead { h with title := Text.trim (stripped.drop 2) } rest
    else { h with body := line :: rest }

/-- The title that a file's name gives. -/
def titleOfFile (file : Text) : Text :=
  let base := if file.isEmpty then "Untitled prompt".toList else Path.stem (Path.baseName file)
  base.map fun c => if c == '-' || c == '_' then ' ' else c

/-- The tags that content asks for, each with the words that do. -/
def tagHints : List (Text × List Text) :=
  [("login", ["login"]), ("logout", ["logout"]), ("smoke", ["smoke"]),
   ("regression", ["regression"]), ("data-driven", ["data-driven", ".csv", ".xlsx", "expected:"]),
     ("employee", ["employee", "pim"])]

/-- The tags of a prompt that gives none. -/
def inferTags (content : Text) : List Text :=
  let lowered := Text.lower content
  (tagHints.filter fun h => h.2.any (Text.includes · lowered)).map (·.1)

/-- Splits a prompt into its metadata and its body. -/
def parse (text file : Text) : Prompt :=
  let h := readHead {} (Text.lines text)
  let body := Text.trim (Text.joinWith ['\n'] h.body)
  { file := file
    title := if h.title.isEmpty then titleOfFile file else h.title
    tags := if h.tags.isEmpty then inferTags (file ++ ' ' :: body) else h.tags
    body := body }

/-! ### Steps -/

open Pattern in
/-- The number of a step: digits and a point, with blanks in front. -/
def stepNumber : Pattern := seq [atStart, many Text.isBlank, oneOrMore Text.isDigit, letter '.']

open Pattern in
/-- A numbered line: a step number and at least one blank. -/
def stepLine : Pattern := seq [stepNumber, one Text.isBlank]

open Pattern in
/-- The number of a step with the blanks around it. -/
def stepMark : Pattern := seq [stepNumber, many Text.isBlank]

/-- The text of a numbered line behind its number. -/
def stepText (line : Text) : Text :=
  match stepMark.matchAt ⟨none, line⟩ with
  | some (_, rest) => Text.trim rest
  | none => Text.trim line

/-- The numbered lines of a body. -/
def stepLines (body : Text) : List Text := (Text.lines body).filter stepLine.opens

/-- The steps of a body: its numbered lines, or else the whole body as one. -/
def units (body : Text) : List StepUnit :=
  if (Text.trim body).isEmpty then []
  else
    let lines := stepLines body
    if lines.isEmpty then [⟨1, Text.trim body⟩]
    else (lines.zipIdx 1).map fun (line, i) => ⟨i, stepText line⟩

end Prompt

end PlainSteps
