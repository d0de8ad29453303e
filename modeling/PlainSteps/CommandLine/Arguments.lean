import PlainSteps.Text.Basic

/-! # Command line arguments

A command declares its options. An option may be written by the start of its name as long as that
names no other one, and its value stands behind it or behind an equals sign. What is neither an
option nor the value of one is refused, as is everything behind a bare `--`.
-/

namespace PlainSteps.Arguments

/-- An option that a command declares. -/
structure Declared where
  /-- The name, with the dashes in front. -/
  name : Text
  takesValue : Bool := true
  required : Bool := false
  deriving DecidableEq, Repr

/-- The option that every command has. -/
def Declared.help : Declared := { name := "--help", takesValue := false }

/-- Why arguments are refused. -/
inductive Refusal where
  /-- Help is asked for instead. -/
  | help
  | ambiguous (written : Text)
  | missingValue (name : Text)
  | needlessValue (name : Text)
  | missingOption
  | unrecognised
  deriving DecidableEq, Repr

/-- The message for refused arguments. -/
def Refusal.message : Refusal → Text
  | help => []
  | ambiguous written => "ambiguous option: ".toList ++ written
  | missingValue name => "argument ".toList ++ name ++ ": expected one argument"
  | needlessValue name => "argument ".toList ++ name ++ ": ignored explicit argument"
  | missingOption => "a required argument is missing"
  | unrecognised => "unrecognized arguments"

/-- What a single argument is. -/
inductive Word where
  | plain (t : Text)
  | option (o : Declared) (attached : Option Text)
  | stray
  deriving DecidableEq, Repr

/-- An argument in front of its first equals sign, and what is behind that. -/
def splitValue (t : Text) : Text × Option Text :=
  let name := t.takeWhile (· != '=')
  match t.drop name.length with
  | [] => (name, none)
  | _ :: value => (name, some value)

/-- Whether a text is a negative number, which begins with a dash and yet is no option. -/
def isNegativeNumber (t : Text) : Bool :=
  let body := t.drop 1
  let number := if body.getLast? == some '\n' then body.dropLast else body
  let whole := number.takeWhile Text.isDigit
  match number.drop whole.length with
  | [] => !whole.isEmpty
  | '.' :: places => !places.isEmpty && places.all Text.isDigit
  | _ => false

/-- What an argument is that begins with a dash and names no option. -/
def unmatched (t : Text) : Word := if isNegativeNumber t || t.contains ' ' then .plain t else .stray

/-- What an argument is that begins with a dash and one more character. -/
def dashed (options : List Declared) (second : Char) (t : Text) : Except Refusal Word :=
  let (name, attached) := splitValue t
  match options.find? (·.name == name) with
  | some o => .ok (.option o attached)
  | none =>
    if second == '-' then
      match options.filter fun o => Text.startsWith name o.name with
      | [] => .ok (unmatched t)
      | [o] => .ok (.option o attached)
      | _ => .error (.ambiguous t)
    else if second == 'h' then
      .ok (.option .help (if t.drop 2 |>.head?.any fun c => c == '=' || c == '-' then
        some (t.drop 2) else none))
    else .ok (unmatched t)

/-- What an argument is. -/
def word (options : List Declared) (t : Text) : Except Refusal Word :=
  match t with
  | '-' :: second :: _ => dashed options second t
  | t => .ok (.plain t)

/-- What each argument is; behind a bare `--` all are strays. -/
def words (options : List Declared) : List Text → Except Refusal (List Word)
  | [] => .ok []
  | t :: rest =>
    if t == "--".toList then .ok (.stray :: rest.map fun _ => .stray)
    else do return (← word options t) :: (← words options rest)

/-- Options as they were given, the latest last, and whether there were arguments besides. -/
structure Given where
  values : List (Text × Text) := []
  strays : Bool := false
  deriving DecidableEq, Repr

namespace Given

/-- One more option in front. -/
def withOption (name value : Text) (g : Given) : Given :=
  { g with values := (name, value) :: g.values }

/-- The value of an option: the last one counts. -/
def value? (g : Given) (name : Text) : Option Text :=
  ((g.values.filter (·.1 == name)).getLast?).map (·.2)

/-- The value of an option, or else the given one. -/
def value (g : Given) (name default : Text) : Text := (g.value? name).getD default

/-- Whether an option was given. -/
def has (g : Given) (name : Text) : Bool := (g.value? name).isSome

end Given

/-- Pairs options with their values. -/
def gather : List Word → Except Refusal Given
  | [] => .ok {}
  | .plain _ :: rest => (gather rest).map fun g => { g with strays := true }
  | .stray :: rest => (gather rest).map fun g => { g with strays := true }
  | .option o attached :: rest =>
    match o.takesValue, attached, rest with
    | true, some value, rest => (gather rest).map (·.withOption o.name value)
    | true, none, .plain value :: rest => (gather rest).map (·.withOption o.name value)
    | true, none, _ => .error (.missingValue o.name)
    | false, some _, _ => .error (.needlessValue o.name)
    | false, none, rest =>
      if o = .help then .error .help else (gather rest).map (·.withOption o.name [])

/-- The options of a command as arguments give them. -/
def read (options : List Declared) (arguments : List Text) : Except Refusal Given := do
  let given ← gather (← words (.help :: options) arguments)
  if options.any fun o => o.required && !given.has o.name then throw .missingOption
  if given.strays then throw .unrecognised
  return given

end PlainSteps.Arguments
