import PlainSteps.Dataset.Table

/-! # Comma-separated tables

Fields stand between commas, records on lines of their own. Blanks in front of a field are dropped;
a field between double quotes may hold commas, line ends and doubled quotes. Lines without a
character other than blanks and tabs are skipped. The first line is the header; the first record
below it sets the width of the table, and the columns by which it is wider than the header stand in
front and are left out.
-/

namespace PlainSteps.Csv

/-- What ends a field. -/
inductive Ending where
  | comma
  | line
  | text
  deriving DecidableEq, Repr

/-- A field, what ends it, and the text behind that. -/
structure Field where
  value : Text
  ending : Ending
  rest : Text

/-- The field with one more character in front. -/
def Field.push (c : Char) (f : Field) : Field := { f with value := c :: f.value }

/-- A field without quotes, or what follows a closing quote. -/
def bare : Text → Field
  | [] => ⟨[], .text, []⟩
  | ',' :: cs => ⟨[], .comma, cs⟩
  | '\n' :: cs => ⟨[], .line, cs⟩
  | '\r' :: '\n' :: cs => ⟨[], .line, cs⟩
  | '\r' :: cs => ⟨[], .line, cs⟩
  | c :: cs => (bare cs).push c

/-- A field behind its opening quote; nothing when the quote is never closed. -/
def quoted : Text → Option Field
  | [] => none
  | '"' :: '"' :: cs => (quoted cs).map (Field.push '"')
  | '"' :: cs => some (bare cs)
  | c :: cs => (quoted cs).map (Field.push c)

/-- A field from its start. -/
def field (t : Text) : Option Field :=
  match t.dropWhile (· == ' ') with
  | '"' :: cs => quoted cs
  | cs => some (bare cs)

/-- The cells of a record and the text behind its line; nothing when a quote is never closed. -/
def record : Nat → Text → Option (List Text × Text)
  | 0, t => some ([], t)
  | fuel + 1, t =>
    match field t with
    | none => none
    | some f =>
      match f.ending with
      | .comma => (record fuel f.rest).map fun (cells, rest) => (f.value :: cells, rest)
      | _ => some ([f.value], f.rest)

/-- Blanks and tabs. -/
def isSpace (c : Char) : Bool := c == ' ' || c == '\t'

/-- A quote that is never closed, in a record with so many lines before it. -/
structure Unclosed where
  row : Nat
  deriving DecidableEq, Repr

/-- The message for a quote that is never closed. -/
def Unclosed.message (e : Unclosed) : Text :=
  "Error tokenizing data. C error: EOF inside string starting at row ".toList ++ Text.ofNat e.row

/-- The records of a text. `row` counts the lines before it. Empty lines that end in a lone carriage
return are kept in `held`: a record that begins with blanks brings them back as records of one
cell. -/
def records : Nat → Nat → List Text → Text → Except Unclosed (List (List Text))
  | 0, _, _, _ => .ok []
  | fuel + 1, row, held, t =>
    let blank := t.takeWhile isSpace
    match t.drop blank.length with
    | [] => .ok []
    | '\n' :: rest => records fuel (row + 1) [] rest
    | '\r' :: '\n' :: rest => records fuel (row + 1) [] rest
    | '\r' :: rest => records fuel (row + 1) (held ++ [blank]) rest
    | _ =>
      let back := if blank.isEmpty then [] else held.map fun line => [line.dropWhile (· == ' ')]
      let row := row + back.length
      match record (t.length + 1) t with
      | none => .error ⟨row⟩
      | some (cells, rest) => (records fuel (row + 1) [] rest).map fun more => back ++ cells :: more

/-- A record brought to a width by empty cells at its end. -/
def pad (width : Nat) (cells : List Text) : List Text :=
  cells ++ List.replicate (width - cells.length) []

/-- Why a text is no table. -/
inductive TableError where
  | unclosed (e : Unclosed)
  | empty
  deriving DecidableEq, Repr

/-- The message for a text that is no table. -/
def TableError.message : TableError → Text
  | unclosed e => e.message
  | empty => "No columns to parse from file"

/-- The table that records make: the first is the header, and records wider than the first one below
it are left out. -/
def ofRecords : List (List Text) → Except TableError Table
  | [] => .error .empty
  | [header] => .ok ⟨Table.distinctNames header, []⟩
  | header :: first :: rest =>
    let width := max header.length first.length
    let kept := (first :: rest.filter fun cells => cells.length ≤ width).map (pad width)
    .ok ⟨Table.distinctNames header, kept.map fun cells =>
      (cells.drop (width - header.length)).map some⟩

/-- Reads a text as a table; a mark of byte order at its start is dropped. -/
def read (t : Text) : Except TableError Table :=
  let t := match t with
    | '\ufeff' :: rest => rest
    | t => t
  match records (t.length + 1) 0 [] t with
  | .error e => .error (.unclosed e)
  | .ok found => ofRecords found

end PlainSteps.Csv
