import PlainSteps.Browser.Record
import PlainSteps.CommandLine.Command
import PlainSteps.Config.Shipped
import PlainSteps.Json.Printer

/-! # Workspaces

A workspace is a working directory with files beside the directory of the project, in which the
shipped configuration and the sample data stand. Commands run in a workspace.
-/

namespace PlainSteps

/-- The data that comes with the project. -/
def sampleData : Text :=
  "username,password,expected\nAdmin,admin123,Dashboard visible\n".toList ++
    "Admin,wrongpass,Invalid credentials\ninvaliduser,admin123,Invalid credentials\n"

/-- A working directory with its files, what it is run with, and how browsers behave. -/
structure Workspace where
  /-- The files by their paths in the working directory. -/
  files : List (Text × Content) := []
  env : Environment := []
  now : Moment
  /-- The pages of browsers, by their channel or else their engine. -/
  sessions : List (Text × Page) := []

/-! ### Records -/

/-- Reads a cell. -/
def Cell.ofJson : Json → Cell
  | .bool b => .bool b
  | .int i => .number (.ofInt i)
  | .float x => .number x
  | .str t => .text t
  | _ => .empty

/-- The items of a value, if it is a list. -/
def Json.listed : Json → List Json
  | .arr xs => xs
  | _ => []

/-- The fault of the bytes of a workbook that is read as a text. -/
def workbookFault : Text := "byte 0x9c in position 10: invalid start byte"

/-- Reads a sheet. -/
def Sheet.ofJson (x : Json) : Sheet := x.listed.map fun row => row.listed.map Cell.ofJson

/-- Reads what a file holds: a text, or the sheets of a workbook. -/
def Content.ofJson : Json → Content
  | .str t => .text t
  | x => .workbook ⟨workbookFault, ((x.itemsAt? "sheets").getD []).map Sheet.ofJson⟩

/-- Reads files. -/
def Content.membersOf (key : Text) (x : Json) : List (Text × Content) :=
  (x.membersAt key).map fun (path, content) => (path, Content.ofJson content)

/-- Reads an environment. -/
def Environment.ofJson (x : Json) : Environment :=
  (x.membersAt "env").filterMap fun (name, value) =>
    match value with
    | .str t => some (name, t)
    | _ => none

/-- Reads a workspace, which is run at a given moment. -/
def Workspace.ofJson (now : Moment) (x : Json) : Workspace where
  files := Content.membersOf "files" x
  env := Environment.ofJson x
  now := now
  sessions := (x.membersAt "sessions").map fun (name, page) => (name, Page.ofJson page)

namespace Workspace

/-- The name of the working directory. -/
def home : Text := "<tmp>"

/-- The name of the project's directory. -/
def project : Text := "<project>"

/-- The path of the project's directory. -/
def projectPath : Text := '/' :: project

/-- The files of the project. -/
def projectFiles : List (Text × Content) :=
  [("config/app-configs/orangehrm.json", .text Config.shipped.toJson.pretty),
   ("test-data/loginData.csv", .text sampleData)]

/-- Files put into a tree, in order. -/
def place (files : List (Text × Content)) (tree : Files) : Files :=
  files.foldl (fun tree (path, content) => tree.put path (.file content)) tree

/-- The tree of a workspace, without its own files: the project beside an empty working
directory. -/
def ground : Files :=
  let root : Files :=
    { root := .directory [(home, .directory []), (project, .directory [])], directory := [project] }
  { place projectFiles root with directory := [home] }

/-- The tree of a workspace. -/
def tree (w : Workspace) : Files := place w.files ground

/-- What loading configurations depends on. -/
def loading (w : Workspace) : Loading.Setting := ⟨w.tree, w.env, projectPath⟩

/-- What commands depend on. -/
def setting (w : Workspace) : Command.Setting := { loading := w.loading, now := w.now }

/-- The state in which a command finds the browsers and the files. -/
def stage (w : Workspace) : Stage := { sessions := w.sessions, files := w.tree }

mutual

/-- All files below a node with their paths. -/
def filesBelow (path : Text) : Node → List (Text × Content)
  | .file content => [(path, content)]
  | .directory entries => filesAmong path entries

/-- All files among entries of a directory with their paths. -/
def filesAmong (path : Text) : List (Text × Node) → List (Text × Content)
  | [] => []
  | (name, node) :: rest => filesBelow (Path.join path name) node ++ filesAmong path rest

end

/-- The files in the working directory of a tree that are not among those of the workspace. -/
def created (w : Workspace) (tree : Files) : List (Text × Content) :=
  let known := (filesAmong [] (w.tree.entries ".")).map (·.1)
  (filesAmong [] (tree.entries ".")).filter fun file => !known.contains file.1

/-- Plays a command in a workspace. -/
def run {α : Type} (w : Workspace) (command : Command α) : Told (Except Stop α × Stage) :=
  command.run.play Stage.host w.stage

end Workspace

end PlainSteps
