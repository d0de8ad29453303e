import PlainSteps.Files.Path
import PlainSteps.Dataset.Workbook

/-! # Files

A tree of directories and files, and the operations the program needs of it: to look a path up, to
read a text, to make directories and to write a text. What cannot be done is refused with the cause:
a problem with the path, a refusal of the system, or bytes that are no text.
-/

namespace PlainSteps

/-- Bytes that are no text: the first fault among them, and the sheets if they are those of a
workbook. -/
structure Binary where
  fault : Text
  sheets : Option (List Sheet) := none
  deriving Repr

/-- What a file holds. -/
inductive Content where
  | text (t : Text)
  /-- Bytes that are no text, as those of a workbook. -/
  | workbook (bytes : Binary)
  deriving Repr

/-- A file, or a directory with its entries. -/
inductive Node where
  | file (content : Content)
  | directory (entries : List (Text × Node))

/-- Why a path cannot be used. -/
inductive FileProblem where
  | notFound
  | alreadyThere
  | notDirectory
  | isDirectory
  | nameTooLong
  /-- The path holds a NUL, which no path can. -/
  | nul
  deriving DecidableEq, Repr

/-- Why a file cannot be used. -/
inductive FileError where
  /-- There is a problem with the path. -/
  | unusable (problem : FileProblem) (path : Text)
  /-- The system does not let the file be used, in its own words. -/
  | refused (words path : Text)
  /-- The bytes of the file are no text. -/
  | notText (fault : Text)
  deriving DecidableEq, Repr

/-- The words for a problem. -/
def FileProblem.words : FileProblem → Text
  | notFound => "[Errno 2] No such file or directory"
  | alreadyThere => "[Errno 17] File exists"
  | notDirectory => "[Errno 20] Not a directory"
  | isDirectory => "[Errno 21] Is a directory"
  | nameTooLong => "[Errno 36] File name too long"
  | nul => "embedded null byte"

/-- The message for a file that cannot be used. -/
def FileError.message : FileError → Text
  | unusable .nul _ => FileProblem.words .nul
  | unusable problem path => problem.words ++ ": " ++ Text.quoted path
  | refused words path => words ++ ": ".toList ++ Text.quoted path
  | notText fault => "'utf-8' codec can't decode ".toList ++ fault

/-- The problem that an error counts as where only kinds of errors are told apart: a refusal is an
error of the system, as a name that is too long is, and bytes that are no text are a bad value, as a
NUL in a path is. -/
def FileError.problem : FileError → FileProblem
  | unusable problem _ => problem
  | refused .. => .nameTooLong
  | notText _ => .nul

/-- What a file holds as a text, with unified line ends. -/
def Content.asText : Content → Except FileError Text
  | .text t => .ok (Text.unifyNewlines t)
  | .workbook bytes => .error (.notText bytes.fault)

/-- A tree of files, the directory in which relative paths begin, and the files that are not to be
used. -/
structure Files where
  root : Node
  directory : List Text
  /-- What the system says when it does not let the file at a path be used. -/
  refusal : Text → Option Text := fun _ => none

namespace Files

/-- The tree with entries at its root, where paths begin and everything may be used. -/
def ofEntries (entries : List (Text × Node)) : Files :=
  { root := .directory entries, directory := [] }

/-- The greatest size of a name, in bytes. -/
def maxName : Nat := 255

/-- The greatest size of a path, in bytes. -/
def maxPath : Nat := 4095

/-- The size of a text in bytes. -/
def size (t : Text) : Nat := (t.flatMap String.utf8EncodeChar).length

/-- The node of a name among the entries of a directory. -/
def child? (name : Text) (entries : List (Text × Node)) : Option Node :=
  (entries.find? (·.1 == name)).map (·.2)

/-- Goes down names from a node; `above` holds the directories passed on the way, the nearest
first. -/
def walk (here : Node) (above : List Node) : List Text → Except FileProblem Node
  | [] => .ok here
  | name :: rest =>
    match here with
    | .file _ => .error .notDirectory
    | .directory entries =>
      if name.isEmpty || name == ['.'] then walk here above rest
      else if name == "..".toList then
        match above with
        | [] => walk here [] rest
        | up :: higher => walk up higher rest
      else if maxName < size name then .error .nameTooLong
      else match child? name entries with
        | none => .error .notFound
        | some node => walk node (here :: above) rest

/-- The names of a path, from the root on. -/
def names (f : Files) (path : Text) : List Text :=
  let own := Text.splitOn '/' path
  if Path.isAbsolute path then own else f.directory ++ own

/-- What stands at a path. -/
def find (f : Files) (path : Text) : Except FileProblem Node :=
  if path.contains '\x00' then .error .nul
  else if path.isEmpty then .error .notFound
  else if maxPath < size path then .error .nameTooLong
  else walk f.root [] (f.names path)

/-- Whether anything stands at a path. -/
def exists? (f : Files) (path : Text) : Bool := (f.find path).toBool

/-- Whether a file stands at a path. -/
def isFile (f : Files) (path : Text) : Bool :=
  match f.find path with
  | .ok (.file _) => true
  | _ => false

/-- Whether a directory stands at a path. -/
def isDirectory (f : Files) (path : Text) : Bool :=
  match f.find path with
  | .ok (.directory _) => true
  | _ => false

/-- Lets a file be used, unless the system refuses it. -/
def allow (f : Files) (path : Text) : Except FileError Unit :=
  match f.refusal path with
  | some words => .error (.refused words path)
  | none => .ok ()

/-- The text of a file, with unified line ends. -/
def readText (f : Files) (path : Text) : Except FileError Text :=
  match f.find path with
  | .error problem => .error (.unusable problem path)
  | .ok (.directory _) => .error (.unusable .isDirectory path)
  | .ok (.file content) => do
    f.allow path
    content.asText

theorem readText_of_file {f : Files} {path : Text} {content : Content}
    (hfind : f.find path = .ok (.file content)) :
    f.readText path = match f.refusal path with
      | some words => .error (.refused words path)
      | none => content.asText := by
  simp only [readText, hfind, allow]
  cases f.refusal path <;> rfl

/-- The entries of a directory. -/
def entries (f : Files) (path : Text) : List (Text × Node) :=
  match f.find path with
  | .ok (.directory entries) => entries
  | _ => []

/-! ### Changes -/

/-- Puts a node in place of another one or beside the others. -/
def putEntry (name : Text) (node : Node) : List (Text × Node) → List (Text × Node)
  | [] => [(name, node)]
  | (n, x) :: rest => if n == name then (n, node) :: rest else (n, x) :: putEntry name node rest

/-- The tree with a node put at the end of names that lead through directories. -/
def putAt (node : Node) : List Text → Node → Node
  | [], _ => node
  | _, .file c => .file c
  | name :: rest, .directory entries =>
    let below := (child? name entries).getD (.directory [])
    .directory (putEntry name (putAt node rest below) entries)

/-- The plain names of a path from the root on. -/
def resolved (f : Files) (path : Text) : List Text := ((f.names path).foldl Path.enter []).reverse

/-- The files with a node put at a path, all directories on the way made. -/
def put (f : Files) (path : Text) (node : Node) : Files :=
  { f with root := putAt node (f.resolved path) f.root }

/-- Makes one directory. -/
def makeDirectory (f : Files) (path : Text) : Except FileError Files :=
  let bare := Text.trimRightOf (· == '/') path
  match f.find path with
  | .ok _ => .error (.unusable .alreadyThere path)
  | .error .notFound =>
    let parent := Path.parent bare
    match f.find (if parent.isEmpty then ['.'] else parent) with
    | .ok (.directory _) =>
      if bare.isEmpty then .error (.unusable .notFound path)
      else do
        f.allow path
        return f.put bare (.directory [])
    | .ok (.file _) => .error (.unusable .notDirectory path)
    | .error problem => .error (.unusable problem path)
  | .error .notDirectory =>
    .error (.unusable (if f.exists? bare then .alreadyThere else .notDirectory) path)
  | .error problem => .error (.unusable problem path)

/-- Makes a directory and those above it; one that is already there is left as it is. -/
def makeDirectories : Nat → Files → Text → Except FileError Files
  | 0, f, _ => .ok f
  | fuel + 1, f, path => do
    let bare := if (Path.baseName path).isEmpty then Text.trimRightOf (· == '/') path else path
    let head := Path.parent bare
    let tail := Path.baseName bare
    let climbs := !head.isEmpty && !tail.isEmpty && !f.exists? head
    let f ← if !climbs then .ok f else
      match makeDirectories fuel f head with
      | .error (.unusable .alreadyThere _) => .ok f
      | r => r
    if climbs && tail == ['.'] then return f
    match f.makeDirectory path with
    | .ok f => return f
    | .error e => if f.isDirectory path then return f else throw e

/-- Makes sure that a directory is there. -/
def ensureDirectory (f : Files) (path : Text) : Except FileError Files :=
  makeDirectories (path.length + 1) f path

/-- Writes a text to a file. -/
def writeText (f : Files) (path t : Text) : Except FileError Files :=
  match f.find path with
  | .ok (.directory _) => .error (.unusable .isDirectory path)
  | .ok (.file _) => do
    f.allow path
    return f.put path (.file (.text t))
  | .error .notFound =>
    let parent := Path.parent path
    match f.find (if parent.isEmpty then ['.'] else parent) with
    | .ok (.directory _) =>
      if (Path.baseName path).isEmpty then .error (.unusable .notFound path)
      else do
        f.allow path
        return f.put path (.file (.text t))
    | .ok (.file _) => .error (.unusable .notDirectory path)
    | .error problem => .error (.unusable problem path)
  | .error problem => .error (.unusable problem path)

end Files

end PlainSteps
