import PlainSteps.Dataset.Csv
import PlainSteps.Files.Tree
import PlainSteps.Pattern.Reader

/-! # Libraries

What the program takes from libraries: which texts are patterns, and how the bytes of a data file
are read as a table. All that is known of these functions is how they are called and in which two
ways they end. The own ones stand in for them where a program is to run; nothing that is proved of
every library rests on them.
-/

namespace PlainSteps

/-- The functions of libraries. The texts are those of the errors. -/
structure Libraries where
  /-- Accepts the texts that are patterns, in any case of letters. -/
  pattern : Text → Except Text Unit
  /-- Reads a comma-separated table. -/
  csv : Content → Except Text Table
  /-- Reads the first sheet of a workbook. -/
  excel : Content → Except Text Table

namespace Libraries

/-- The own check of patterns. -/
def ownPattern (t : Text) : Except Text Unit :=
  match Pattern.read t with
  | .ok _ => .ok ()
  | .error e => .error (e.message t)

/-- The own reader of comma-separated tables. -/
def ownCsv : Content → Except Text Table
  | .text t => (Csv.read t).mapError Csv.TableError.message
  | .workbook bytes => .error (FileError.notText bytes.fault).message

/-- The own reader of workbooks. -/
def ownExcel : Content → Except Text Table
  | .workbook ⟨_, some sheets⟩ => .ok (sheets.headD []).toTable
  | _ => .error "Excel file format cannot be determined, you must specify an engine manually."

/-- The own functions. -/
def own : Libraries := ⟨ownPattern, ownCsv, ownExcel⟩

end Libraries

end PlainSteps
