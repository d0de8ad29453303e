import PlainSteps.Config.Record
import PlainSteps.Files.Tree
import PlainSteps.Json.Reader
import PlainSteps.Told

/-! # Loading configurations

A configuration is read from the file of its application, with the environment laid over it, and
checked. Once it is loaded it is kept: later loads of the same application from the same directory
return it again, whatever has become of the file and the environment.
-/

namespace PlainSteps

/-- The variables that are set. -/
abbrev Environment := List (Text × Text)

/-- The value of a variable; an empty one counts as not set. -/
def Environment.value? (env : Environment) (name : Text) : Option Text :=
  (Json.lookup? name env).filter (!·.isEmpty)

/-- Why the environment cannot be laid over what a file holds. -/
inductive OverlayError where
  /-- A member is set in a list. -/
  | listMember
  /-- A member is set in a value that has none. -/
  | noMembers (type : Text)
  /-- A member is looked for in a value that is no object. -/
  | noLookup (type : Text)
  /-- The credentials are no collection. -/
  | notIterable (type : Text)
  /-- An item of the credentials is no pair. -/
  | notSequence (position : Nat)
  /-- An item of the credentials has another length than two. -/
  | notPair (position length : Nat)
  /-- The name in an item of the credentials is itself a collection. -/
  | unhashable (type : Text)
  /-- The data directory is no text. -/
  | notPath (type : Text)
  deriving DecidableEq, Repr

/-- The message for an environment that cannot be laid over. -/
def OverlayError.message : OverlayError → Text
  | listMember => "list indices must be integers or slices, not str"
  | noMembers type => '\x27' :: type ++ "' object does not support item assignment"
  | noLookup type => '\x27' :: type ++ "' object has no attribute 'get'"
  | notIterable type => '\x27' :: type ++ "' object is not iterable"
  | notSequence n =>
    "cannot convert dictionary update sequence element #".toList ++ Text.ofNat n ++ " to a sequence"
  | notPair n length =>
    "dictionary update sequence element #".toList ++ Text.ofNat n ++ " has length " ++
      Text.ofNat length ++ "; 2 is required"
  | unhashable type => "unhashable type: '".toList ++ type ++ ['\x27']
  | notPath type => "expected str, bytes or os.PathLike object, not ".toList ++ type

/-- Why a configuration is not loaded. -/
inductive ConfigError where
  | unreadable (app : Text) (e : FileError)
  | malformed (app : Text) (e : Json.ReadError)
  | overlay (e : OverlayError)
  | invalid (app : Text) (issues : List Issue)
  deriving DecidableEq, Repr

/-- The message for a configuration that is not loaded; the issues of an invalid one are listed
apart. -/
def ConfigError.message : ConfigError → Text
  | unreadable app e => "Failed to load configuration for application '".toList ++ app ++
      "': " ++ e.message
  | malformed app e => "Failed to load configuration for application '".toList ++ app ++
      "': " ++ e.message
  | overlay e => e.message
  | invalid app _ => "Invalid configuration for application '".toList ++ app ++ "': "

/-- Whether a configuration is not loaded for a reason that its own file or the lack of it gives. -/
def ConfigError.isExpected : ConfigError → Bool
  | unreadable _ e => e.problem != .nul
  | malformed _ e => !e.isTooLong
  | overlay _ => false
  | invalid .. => true

namespace Loading

/-! ### The environment -/

/-- The name of a value's type in messages. -/
def typeName : Json → Text
  | .null => "NoneType"
  | .bool _ => "bool"
  | .int _ => "int"
  | .float _ => "float"
  | .str _ => "str"
  | .arr _ => "list"
  | .obj _ => "dict"

/-- Whether a value counts as nothing. -/
def isNothing : Json → Bool
  | .null => true
  | .bool b => !b
  | .int i => i == 0
  | .float x => x.isZero
  | .str t => t.isEmpty
  | .arr xs => xs.isEmpty
  | .obj ms => ms.isEmpty

/-- Sets a member of a value, if there is something to set. -/
def set (name : Text) (value : Option Text) (x : Json) : Except OverlayError Json :=
  match value, x with
  | none, x => .ok x
  | some t, .obj ms => .ok (.obj (Json.put name (.str t) ms))
  | some _, .arr _ => .error .listMember
  | some _, x => .error (.noMembers (typeName x))

/-- The members of an object. -/
def membersOf : Json → Except OverlayError Json.Members
  | .obj ms => .ok ms
  | x => .error (.noLookup (typeName x))

/-- A name and a value as a member; only a text can be the name of a field. -/
def pair (name value : Json) : Except OverlayError (Option (Text × Json)) :=
  match name with
  | .str t => .ok (some (t, value))
  | .arr _ => .error (.unhashable "list")
  | .obj _ => .error (.unhashable "dict")
  | _ => .ok none

/-- A pair of items as a member. -/
def pairOf (n : Nat) : List Json → Except OverlayError (Option (Text × Json))
  | [name, value] => pair name value
  | items => .error (.notPair n items.length)

/-- An item of a list as a member. -/
def memberOf (n : Nat) : Json → Except OverlayError (Option (Text × Json))
  | .arr items => pairOf n items
  | .str t => pairOf n (t.map fun c => .str [c])
  | .obj ms => pairOf n (ms.map fun m => .str m.1)
  | _ => .error (.notSequence n)

/-- The members that items stand for, the first of them at a position. -/
def membersFrom : Nat → List Json → Except OverlayError Json.Members
  | _, [] => .ok []
  | n, x :: rest => do
    let m ← memberOf n x
    let ms ← membersFrom (n + 1) rest
    return m.toList ++ ms

/-- The credentials of a file as members. -/
def credentialsOf (x : Json) : Except OverlayError Json.Members :=
  if isNothing x then .ok []
  else match x with
    | .obj ms => .ok ms
    | .arr items => (membersFrom 0 items).map Json.settle
    | .str t => (membersFrom 0 (t.map fun c => .str [c])).map Json.settle
    | x => .error (.notIterable (typeName x))

/-- A member replaced by a variable, if that is set. -/
def override (name : Text) (value : Option Text) (ms : Json.Members) : Json.Members :=
  match value with
  | some t => Json.put name (.str t) ms
  | none => ms

/-- The directory of data files when none is given. -/
def defaultDataDir : Text := "test-data"

/-- The data directory, below the project when it is relative. -/
def anchored (project : Text) (ms : Json.Members) : Except OverlayError Json.Members :=
  match (Json.lookup? "data_dir" ms).filter (!isNothing ·) with
  | none => .ok (Json.put "data_dir" (.str (Path.join project defaultDataDir)) ms)
  | some (.str t) =>
    .ok (if Path.isAbsolute t then ms else Json.put "data_dir" (.str (Path.join project t)) ms)
  | some x => .error (.notPath (typeName x))

/-- What a file holds with the environment laid over it. -/
def overlay (env : Environment) (project : Text) (x : Json) : Except OverlayError Json := do
  let x ← set "base_url" (env.value? "APP_BASE_URL") x
  let x ← set "data_dir" (env.value? "APP_DATA_DIR") x
  let ms ← membersOf x
  let credentials ← credentialsOf ((Json.lookup? "default_credentials" ms).getD .null)
  let credentials := override "username" (env.value? "APP_USERNAME") credentials
  let credentials := override "password" (env.value? "APP_PASSWORD") credentials
  let ms ← anchored project (Json.put "default_credentials" (.obj credentials) ms)
  return .obj ms

/-! ### Loading -/

/-- What loading depends on. -/
structure Setting where
  files : Files
  env : Environment
  /-- The directory of the project. -/
  project : Text

/-- The directory of the configurations that come with the project. -/
def Setting.shippedDirectory (s : Setting) : Text := Path.join s.project "config/app-configs"

/-- The directory that is meant: the given one, or else that of the project. -/
def Setting.directoryOf (s : Setting) (directory : Option Text) : Text :=
  match directory.filter (!·.isEmpty) with
  | some d => d
  | none => s.shippedDirectory

/-- The absolute path of the working directory. -/
def Setting.here (s : Setting) : Text := '/' :: Text.joinWith ['/'] s.files.directory

/-- What tells loads apart: the application, in lower case, and the directory. -/
abbrev Key := Text × Text

/-- The key of a load. -/
def key (s : Setting) (app : Text) (directory : Option Text) : Key :=
  (Text.lower app, Path.absolute s.here (s.directoryOf directory))

/-- The configurations that were loaded. -/
abbrev Cache := List (Key × Config)

/-- The configuration kept under a key. -/
def Cache.get? (c : Cache) (k : Key) : Option Config := (c.find? (·.1 == k)).map (·.2)

/-- The file of an application. -/
def fileOf (s : Setting) (app : Text) (directory : Option Text) : Text :=
  Path.join (s.directoryOf directory) (Text.lower app ++ ".json")

/-- Reads and checks a configuration. -/
def read (s : Setting) (app : Text) (directory : Option Text) : Except ConfigError Config := do
  let text ← (s.files.readText (fileOf s app directory)).mapError (.unreadable app)
  let x ← (Json.read text).mapError (.malformed app)
  let x ← (overlay s.env s.project x).mapError .overlay
  (Config.ofJson x).toExcept.mapError (.invalid app)

/-- Loads a configuration: the one that is kept, or else the one in the file, which is kept from
then on. -/
def load (s : Setting) (cache : Cache) (app : Text) (directory : Option Text) :
    Told (Except ConfigError Config × Cache) :=
  let k := key s app directory
  match cache.get? k with
  | some config => return (.ok config, cache)
  | none =>
    match read s app directory with
    | .error e => return (.error e, cache)
    | .ok config => do
      Told.say ("✅ Loaded configuration for ".toList ++ config.name ++ " v" ++ config.version)
      Told.say ("📍 Base URL: ".toList ++ config.baseUrl)
      return (.ok config, cache ++ [(k, config)])

/-- The extension of a configuration's file. -/
def extension : Text := ".json"

/-- The applications that have a configuration in a directory. -/
def available (s : Setting) (directory : Option Text) : List Text :=
  let names := (s.files.entries (s.directoryOf directory)).map (·.1)
  ((names.filter (Text.endsWith extension)).map Path.stem).mergeSort Text.notAfter

end Loading

end PlainSteps
