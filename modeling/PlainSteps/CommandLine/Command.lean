import PlainSteps.CommandLine.Arguments
import PlainSteps.Config.Loading
import PlainSteps.Pipeline

/-! # Commands

What the commands have in common: what they depend on, how they stop, and how they read their prompt
and their configuration.
-/

namespace PlainSteps

/-- How a command stops before its end. -/
inductive Stop where
  | refused (r : Arguments.Refusal)
  | config (e : ConfigError)
  | file (e : FileError)
  | generation (e : GenerationError)
  | fault (f : Fault)
  deriving DecidableEq, Repr

/-- The message of a command that stopped. -/
def Stop.message : Stop → Text
  | refused r => r.message
  | config e => e.message
  | file e => e.message
  | generation e => e.message
  | fault f => f.message

/-- The exit code that belongs to a stop, if it has one of its own. -/
def Stop.exitCode? : Stop → Option Nat
  | refused .help => some 0
  | refused _ => some 2
  | _ => none

/-- A script of a command, which may stop. -/
abbrev Command := ExceptT Stop Script

namespace Command

/-- What commands depend on. -/
structure Setting where
  loading : Loading.Setting
  now : Moment
  libraries : Libraries := .own

/-- The files of a setting. -/
def Setting.files (s : Setting) : Files := s.loading.files

/-- Tells one line. -/
def tell (line : Text) : Command Unit := ExceptT.lift (Script.tell line)

/-- Makes a request; its faults stop the command. -/
def request (q : Request) : Command q.Reply := ExceptT.mk do
  return (← Script.request q).mapError .fault

/-- A value found on the way, with what was told of it. -/
def found {α : Type} (x : Told α) : Command α := ExceptT.lift do
  Pipeline.tellAll x.lines
  return x.value

/-- A result, or the stop that its error is. -/
def orStop {ε α : Type} (stop : ε → Stop) (x : Except ε α) : Command α :=
  ExceptT.mk (pure (x.mapError stop))

/-- The options given, or the help that is asked for. -/
def options (declared : List Arguments.Declared) (help : List Text) (arguments : List Text) :
    Command Arguments.Given :=
  match Arguments.read declared arguments with
  | .ok given => return given
  | .error r => do
    if r = .help then help.forM tell
    throw (.refused r)

/-- The configuration of an application; nothing when it cannot be had, which is told. -/
def config? (s : Setting) (app : Text) : Command (Option Config) := do
  let (loaded, _) ← found (Loading.load s.loading [] app none)
  match loaded with
  | .ok config => return some config
  | .error e =>
    if e.isExpected then
      tell ("❌ ".toList ++ e.message)
      return none
    else throw (.config e)

/-- Tells that a file is not there. -/
def tellMissing (path : Text) : Command Unit := tell ("Error: File ".toList ++ path ++ " not found")

end Command

end PlainSteps
