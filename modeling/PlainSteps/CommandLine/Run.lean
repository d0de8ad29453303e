import PlainSteps.CommandLine.Command

/-! # The command that runs prompts

It runs one prompt or all prompts below a directory on the browsers that are asked for, or only
shows what they compile to. It ends well only if every prompt succeeded.
-/

namespace PlainSteps.Command.Run

/-- The options of the command. -/
def declared : List Arguments.Declared :=
  [{ name := "--file" }, { name := "--prompts-dir" }, { name := "--tags" }, { name := "--app" },
   { name := "--browsers" }, { name := "--parallel", takesValue := false },
   { name := "--headed", takesValue := false }, { name := "--compile-only", takesValue := false }]

/-- The help of the command. -/
def help : List Text :=
  ["usage: run [-h] [--file FILE] [--prompts-dir PROMPTS_DIR] [--tags TAGS]",
   "           [--app APP] [--browsers BROWSERS] [--parallel] [--headed]",
   "           [--compile-only]",
   "",
   "Run natural-language browser tests with a LangGraph pipeline",
   "",
   "options:",
   "  -h, --help            show this help message and exit",
   "  --file FILE           Run a single prompt file",
   "  --prompts-dir PROMPTS_DIR",
   "                        Directory of prompt files (default: prompts)",
   "  --tags TAGS           Comma-separated tags; only prompts carrying one of",
   "                        them run",
   "  --app APP             Application config to use (default: orangehrm)",
   "  --browsers BROWSERS   Comma-separated browsers: chromium, firefox, webkit,",
   "                        chrome, edge",
   "  --parallel            Run the target browsers concurrently",
   "  --headed              Show the browser windows",
   "  --compile-only        Print the compiled actions as JSON without launching a",
   "                        browser"]

/-- The lines in front of everything else. -/
def banner : List Text :=
  [Text.rule 80 '=', "Natural-Language Browser Test Runner with LangGraph Pipeline",
    Text.rule 80 '=']

/-- The application when none is named: that of the environment, or else the one that is shipped. -/
def defaultApp (env : Environment) : Text := (Json.lookup? "APP_NAME" env).getD "orangehrm"

/-- The directory of prompts when none is named. -/
def defaultDirectory : Text := "prompts"

/-- The value of an option, unless it is empty. -/
def nonEmpty (given : Arguments.Given) (name : Text) : Option Text :=
  (given.value? name).filter (!·.isEmpty)

/-- The tags asked for. -/
def tagsOf (given : Arguments.Given) : List Text :=
  match nonEmpty given "--tags" with
  | none => []
  | some t => ((Text.splitOn ',' t).filter fun tag => !(Text.trim tag).isEmpty).map Text.trim

/-- The browsers asked for. -/
def browsersOf (given : Arguments.Given) (config : Config) : List Text :=
  match nonEmpty given "--browsers" with
  | none => config.browsers
  | some t => Text.splitOn ',' t

/-- Texts as a list that a message shows. -/
def listed (ts : List Text) : Text := '[' :: Text.joinWith ", " (ts.map Text.quoted) ++ [']']

/-- The prompts to run; nothing when there are none, which is told. -/
def prompts? (p : Pipeline) (given : Arguments.Given) : Command (Option (List Text)) := do
  match nonEmpty given "--file" with
  | some path =>
    if p.files.exists? path then return some [path]
    else
      tellMissing path
      return none
  | none =>
    let directory := given.value "--prompts-dir" defaultDirectory
    let tags := tagsOf given
    let paths ← orStop .file (Pipeline.select p.files directory tags)
    if paths.isEmpty then
      let wanted : Text := if tags.isEmpty then [] else " with tags ".toList ++ listed tags
      tell ("⚠️  No prompt files found in ".toList ++ directory ++ wanted)
      return none
    else return some paths

/-- Shows what prompts compile to. -/
def showCompiled (p : Pipeline) (paths : List Text) : Command Unit := do
  match ← found (p.compileOnly paths).run with
  | .error (.file e) => throw (.file e)
  | .error (.generation e) => throw (.generation e)
  | .ok compiled =>
    tell (Json.arr (compiled.map fun (path, c) => Pipeline.compiledJson path c)).pretty

/-- Runs prompts and tells whether all succeeded. -/
def runPrompts (p : Pipeline) (paths : List Text) : Command Bool := do
  match ← ExceptT.lift (p.runAll paths) with
  | .error e => throw (.file e)
  | .ok states =>
    ExceptT.adapt .fault (p.publish states)
    tell "\nTest execution complete!"
    return states.all (·.isSuccess)

/-- Tells which configurations there are. -/
def tellAvailable (s : Setting) : Command Unit := do
  let apps := Loading.available s.loading none
  if !apps.isEmpty then tell ("Available app configs: ".toList ++ Text.joinWith ", " apps)

/-- The pipeline that is asked for. -/
def pipeline (s : Setting) (given : Arguments.Given) (config : Config) : Command Pipeline := do
  let browsers ← found (selectBrowsers (browsersOf given config))
  return { config := { config with libraries := s.libraries }, browsers
           parallel := given.has "--parallel", headed := given.has "--headed" || !config.headless
           files := s.files, now := s.now }

/-- Runs the command; the number is its exit code. -/
def run (s : Setting) (arguments : List Text) : Command Nat := do
  let given ← options declared help arguments
  banner.forM tell
  match ← config? s (given.value "--app" (defaultApp s.loading.env)) with
  | none =>
    tellAvailable s
    return 1
  | some config =>
    let p ← pipeline s given config
    match ← prompts? p given with
    | none => return 1
    | some paths =>
      tell ("📋 Prompts: ".toList ++ Text.ofNat paths.length)
      tell ("🌐 Browsers: ".toList ++ Text.joinWith ", " p.browsers)
      if given.has "--compile-only" then
        showCompiled p paths
        return 0
      else return if ← runPrompts p paths then 0 else 1

end PlainSteps.Command.Run
