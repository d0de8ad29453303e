import PlainSteps.Generator
import PlainSteps.Prompt

/-! # Compilation

A prompt becomes a sequence of actions: step by step, or, when its body carries dataset rows, as one
login for each row. A compilation that is saved keeps the prompt's metadata, its steps and its
actions.
-/

namespace PlainSteps

/-- A compiled prompt. -/
structure Compilation where
  prompt : Prompt
  units : List StepUnit
  sequence : Sequence
  deriving DecidableEq, Repr

/-- What compiling depends on. -/
structure Compiler where
  config : Config
  source : DataSource

namespace Compiler

/-- The generator of a compiler. -/
def generator (c : Compiler) : Generator := ⟨{ config := c.config }, c.source⟩

/-- The pause for a step that nothing is known of. -/
def unclassifiedWait : Int := 1000

/-- The steps of a body, told when they are numbered. -/
def segment (body : Text) : Told (List StepUnit) := do
  let numbered := Prompt.stepLines body
  if !(Text.trim body).isEmpty && !numbered.isEmpty then
    Told.say ("🔍 Found ".toList ++ Text.ofNat numbered.length ++ " numbered steps to parse")
  return Prompt.units body

/-- The actions of one step; a step without any waits. -/
def compileUnit (c : Compiler) (u : StepUnit) : Trying GenerationError (List Action) := do
  let actions ← c.generator.generate u.index 0 u.text
  if actions.isEmpty then
    Trying.say ("   ⚠️  No actions recognised for step ".toList ++ Text.ofNat u.index ++ ": \"" ++
      excerpt u.text ++ "\"")
    return [Action.wait unclassifiedWait ("Step ".toList ++ Text.ofNat u.index ++
      ": unclassified step")]
  return actions

/-- The actions of steps in order. -/
def compileEach (c : Compiler) : List StepUnit → Trying GenerationError (List Action)
  | [] => return []
  | u :: rest => do return (← c.compileUnit u) ++ (← c.compileEach rest)

/-- The sequence of steps; without any it opens the application. -/
def compileUnits (c : Compiler) (units : List StepUnit) : Trying GenerationError Sequence :=
  if units.isEmpty then
    return ⟨[Action.navigate c.config.baseUrl "Navigate to application (default action)"]⟩
  else Sequence.mk <$> c.compileEach units

/-- Whether the rows in a body are run as a whole. -/
def runsInline (body : Text) : Bool := Facts.hasInlineRow body && !(Dataset.inlineRows body).isEmpty

/-- The sequence of a body with its steps. -/
def compileBody (c : Compiler) (body : Text) (units : List StepUnit) :
    Trying GenerationError Sequence :=
  if runsInline body then do
    Trying.say "📊 Inline dataset detected - generating per-row login actions"
    let actions ← ExceptT.lift (Expansion.expand c.config c.source body 1)
    return ⟨actions⟩
  else c.compileUnits units

/-- The sequence of a prompt. -/
def compile (c : Compiler) (text : Text) : Trying GenerationError Sequence := do
  let prompt := Prompt.parse text []
  let units ← ExceptT.lift (segment prompt.body)
  c.compileBody prompt.body units

/-- Compiles the prompt of a file, and tells how far it got. -/
def compilePrompt (c : Compiler) (text file : Text) : Trying GenerationError Compilation := do
  Trying.say ("Parsing text content (".toList ++ Text.ofNat text.length ++ " chars)")
  let prompt := Prompt.parse text file
  let units ← ExceptT.lift (segment prompt.body)
  let sequence ← c.compileBody prompt.body units
  Trying.say ("   ✅ Compiled ".toList ++ Text.ofNat sequence.actions.length ++ " actions from " ++
    Text.ofNat units.length ++ " steps")
  return ⟨prompt, units, sequence⟩

end Compiler

/-- A step as a record. -/
def StepUnit.toJson (u : StepUnit) : Json :=
  Json.record [("index", Json.nat u.index), ("text", .str u.text)]

namespace Compilation

/-- A compilation as it is saved. -/
def toJson (c : Compilation) : Json :=
  Json.record [("file", .str c.prompt.file), ("title", .str c.prompt.title),
    ("tags", Json.strs c.prompt.tags), ("steps", .arr (c.units.map StepUnit.toJson)),
      ("actions", c.sequence.toJson)]

end Compilation

end PlainSteps
