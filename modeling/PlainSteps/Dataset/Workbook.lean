import PlainSteps.Dataset.Table

/-! # Workbooks

A workbook is a list of sheets, a sheet a list of rows of typed cells. The first sheet is the table:
its first row the header, the rest the records. A cell that is empty, an error or one of the words
for "not available" is missing.
-/

namespace PlainSteps

/-- A cell of a sheet. -/
inductive Cell where
  | empty
  | text (t : Text)
  | number (x : Binary64)
  | bool (b : Bool)
  deriving DecidableEq, Repr

/-- Rows of cells. -/
abbrev Sheet := List (List Cell)

namespace Sheet

/-- The words for errors that a sheet stores as such. -/
def errorWords : List Text := ["#DIV/0!", "#N/A", "#NAME?", "#NULL!", "#NUM!", "#REF!", "#VALUE!"]

/-- The words for a value that is not available. -/
def missingWords : List Text :=
  ["", "#N/A", "#N/A N/A", "#NA", "-1.#IND", "-1.#QNAN", "-NaN", "-nan", "1.#IND", "1.#QNAN",
   "<NA>", "N/A", "NA", "NULL", "NaN", "None", "n/a", "nan", "null"]

/-- A number as a sheet keeps it, with sixteen significant digits. -/
def stored (x : Binary64) : Binary64 := (Numeral.decimal? (x.significant 16)).getD x

/-- A number as text: whole numbers in full, others with the fewest digits that read back. -/
def numberText (x : Binary64) : Text :=
  let x := stored x
  match x.truncate? with
  | some i => if x.isWhole then Text.ofInt i else x.shortest
  | none => x.shortest

/-- A truth value as text. -/
def boolText (b : Bool) : Text := if b then "True" else "False"

/-- Whether a cell holds nothing. -/
def isEmpty : Cell → Bool
  | .empty => true
  | .text t => t.isEmpty
  | _ => false

/-- A row without the empty cells at its end. -/
def trimRow (row : List Cell) : List Cell := (row.reverse.dropWhile isEmpty).reverse

/-- The rows without empty ones at the end, all brought to the width of the widest. -/
def trimmed (s : Sheet) : Sheet :=
  let rows := ((s.map trimRow).reverse.dropWhile (·.isEmpty)).reverse
  let width := rows.foldl (fun n row => max n row.length) 0
  rows.map fun row => row ++ List.replicate (width - row.length) .empty

/-- Whether a row of a single column is left out as blank. -/
def isBlankRow : List Cell → Bool
  | [] => true
  | [.empty] => true
  | [.text t] => (Text.trim t).isEmpty
  | _ => false

/-- A cell of the header. -/
def headerText : Cell → Text
  | .empty => []
  | .text t => if errorWords.contains t then "nan" else t
  | .number x => numberText x
  | .bool b => boolText b

/-- A cell of a record. -/
def cellText? : Cell → Option Text
  | .empty => none
  | .text t => if missingWords.contains t || errorWords.contains t then none else some t
  | .number x => some (numberText x)
  | .bool b => some (boolText b)

/-- The number that a cell counts as, when it is compared with others of its column. -/
def numberOf? : Cell → Option Binary64
  | .number x => some (stored x)
  | .bool b => some (Binary64.ofInt (if b then 1 else 0))
  | _ => none

/-- A cell, in the form of the first cell of its column that is equal to it. -/
def firstEqual (column : List Cell) (c : Cell) : Cell :=
  match numberOf? c with
  | none => c
  | some x => (column.find? fun d => numberOf? d == some x).getD c

/-- The records, each cell in the form of the first one of its column that is equal to it. -/
def recordsOf (rows : List (List Cell)) : List (List (Option Text)) :=
  rows.map fun row =>
    row.zipIdx.map fun (c, i) => cellText? (firstEqual (rows.map fun r => r.getD i .empty) c)

/-- The table of a sheet. -/
def toTable (s : Sheet) : Table :=
  match (trimmed s).filter (!isBlankRow ·) with
  | [] => ⟨[], []⟩
  | header :: rows => ⟨Table.distinctNames (header.map headerText), recordsOf rows⟩

end Sheet

end PlainSteps
