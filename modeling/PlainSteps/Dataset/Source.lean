import PlainSteps.Dataset.Basic
import PlainSteps.Libraries
import PlainSteps.Told

/-! # Data files

A data source looks the files of datasets up in one directory and has them read as tables. Loading
tells what it finds; rows without a user name or a password are left out.
-/

namespace PlainSteps

/-- What stands at a path. -/
inductive Stored where
  | missing
  | directory
  | file (content : Content)
  /-- A file that the system does not let be used, with what it says. -/
  | refused (words : Text)

/-- A directory of data files, and the libraries that read them. -/
structure DataSource where
  directory : Text
  look : Text → Stored
  libraries : Libraries := .own

namespace DataSource

/-- The data files in a directory of a tree. -/
def ofFiles (f : Files) (directory : Text) : DataSource where
  directory := directory
  look path :=
    match f.find path with
    | .ok (.file c) =>
      match f.refusal path with
      | some words => .refused words
      | none => .file c
    | .ok (.directory _) => .directory
    | .error _ => .missing

/-- The data source with other libraries. -/
def readBy (libraries : Libraries) (s : DataSource) : DataSource := { s with libraries }

/-- The path of a data file. -/
def path (s : DataSource) (name : Text) : Text := Path.join s.directory name

/-- Whether a name is that of a comma-separated table. -/
def isCsv (name : Text) : Bool := Text.endsWith ".csv" (Text.lower name)

/-- The table in a file, read as the name of the file says. -/
def table (s : DataSource) (name : Text) (content : Content) : Except Text Table :=
  if isCsv name then s.libraries.csv content else s.libraries.excel content

/-- The columns a dataset must have. -/
def requiredColumns : List Text := ["username", "password"]

/-- A record under normalised names: of equal names the last value counts, at the first one's
place. -/
def named (header : List Text) (record : List (Option Text)) : List (Text × Option Text) :=
  Json.settle (header.zip record)

/-- Whether a record has a value in a column. -/
def hasValue (record : List (Text × Option Text)) (column : Text) : Bool :=
  match Json.lookup? column record with
  | some (some t) => !(Text.trim t).isEmpty
  | _ => false

/-- The row of a record: its values without the blanks around them, and always an expected text. -/
def rowOf (record : List (Text × Option Text)) : Row :=
  let fields := record.filterMap fun (name, cell) => cell.map fun t => (name, Text.trim t)
  ⟨if fields.any (·.1 == "expected".toList) then fields else fields ++ [("expected".toList, [])]⟩

/-- The rows of records; `position` is that of the first one. -/
def rowsOf (name : Text) : Nat → List (List (Text × Option Text)) → Told (List Row)
  | _, [] => return []
  | position, record :: rest =>
    if requiredColumns.all (hasValue record) then do
      let rows ← rowsOf name (position + 1) rest
      return rowOf record :: rows
    else do
      Told.say ("⚠️  Skipping incomplete row ".toList ++ Text.ofNat position ++ " in " ++ name)
      rowsOf name (position + 1) rest

/-- The dataset of a table. -/
def datasetOf (name : Text) (table : Table) : Told Dataset := do
  let header := table.header.map fun column => Text.lower (Text.trim column)
  Told.say ("📋 Data headers: ".toList ++ Text.joinWith ", " header)
  let missing := requiredColumns.filter fun column => !header.contains column
  if missing.isEmpty then
    let rows ← rowsOf name 1 (table.records.map (named header))
    Told.say ("📊 Successfully parsed ".toList ++ Text.ofNat rows.length ++
      " data rows from " ++ name)
    return ⟨.external name, rows⟩
  else
    Told.say ("⚠️  Data file ".toList ++ name ++ " has no " ++ Text.joinWith ", " missing ++
      " column - no rows usable")
    return ⟨.external name, []⟩

/-- The table in a data file, if there is such a file. -/
def tableAt (s : DataSource) (name : Text) : Except Text (Option Table) :=
  let path := s.path name
  match s.look path with
  | .missing => .ok none
  | .directory => .error (FileError.unusable .isDirectory path).message
  | .refused words => .error (FileError.refused words path).message
  | .file content => (s.table name content).map some

/-- The dataset of a data file; nothing when it is missing or cannot be read. -/
def load (s : DataSource) (name : Text) : Told (Option Dataset) :=
  match s.tableAt name with
  | .ok none => do
    Told.say ("❌ Data file not found: ".toList ++ s.path name)
    return none
  | .error message => do
    Told.say ("❌ Error reading data file ".toList ++ name ++ ": " ++ message)
    return none
  | .ok (some table) => some <$> datasetOf name table

end DataSource

end PlainSteps
