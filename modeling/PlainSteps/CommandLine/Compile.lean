import PlainSteps.CommandLine.Command

/-! # The command that compiles

It compiles one prompt, shows the actions, and saves the compilation if that is asked for.
-/

namespace PlainSteps

namespace Compilation

/-- The file of a compilation in a directory. -/
def path (directory : Text) (now : Moment) : Text :=
  Path.join directory ("compiled_".toList ++ now.stamp ++ ".json")

/-- Saves a compilation in a directory, and answers with the path. -/
def save (c : Compilation) (directory : Text) (now : Moment) : ExceptT Fault Script Text := do
  let path := path directory now
  ExceptT.mk (Script.request (.makeDirectory directory))
  ExceptT.mk (Script.request (.writeText path c.toJson.pretty))
  ExceptT.lift (Script.tell ("✅ Compiled actions saved to: ".toList ++ path))
  return path

end Compilation

namespace Command.Compile

/-- The options of the command. -/
def declared : List Arguments.Declared :=
  [{ name := "--file", required := true }, { name := "--app" }, { name := "--output" },
   { name := "--save", takesValue := false }]

/-- The help of the command. -/
def help : List Text :=
  ["usage: compile [-h] --file FILE [--app APP] [--output OUTPUT] [--save]",
   "",
   "Compile a natural-language test prompt into browser actions",
   "",
   "options:",
   "  -h, --help       show this help message and exit",
   "  --file FILE      Path to the prompt file",
   "  --app APP        Application config to use",
   "  --output OUTPUT  Directory to save compiled results (default: parsed_tests)",
   "  --save           Also save the compiled JSON"]

/-- The application when none is named. -/
def defaultApp : Text := "orangehrm"

/-- The directory for compilations when none is named. -/
def defaultOutput : Text := "parsed_tests"

/-- Compiles a prompt of an application. -/
def compile (s : Setting) (config : Config) (path : Text) : Command Compilation := do
  let input ← orStop .file (s.files.readText path)
  let compiler : Compiler :=
    ⟨config, (DataSource.ofFiles s.files config.dataDir).readBy s.libraries⟩
  orStop .generation (← found (compiler.compilePrompt input path).run)

/-- Runs the command. -/
def run (s : Setting) (arguments : List Text) : Command Unit := do
  let given ← options declared help arguments
  let path := given.value "--file" []
  if !s.files.exists? path then tellMissing path
  else
    match ← config? s (given.value "--app" defaultApp) with
    | none => return
    | some config =>
      let compilation ← compile s config path
      tell compilation.sequence.toJson.pretty
      if given.has "--save" then
        let _ ← ExceptT.adapt .fault (compilation.save (given.value "--output" defaultOutput) s.now)

end Command.Compile

end PlainSteps
