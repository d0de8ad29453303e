import PlainSteps.Proofs.Compilation.Blocks
import PlainSteps.Proofs.Pipeline.Passing
import PlainSteps.Proofs.Text.Newlines

/-! # One compilation for every reading

A prompt can be compiled as a text, as the content of a named file, to be shown, or in the pipeline
to be run; and it can come with any line ends, or with those that reading a file leaves. All of
these see the same lines, up to an empty one at the end. The head of a prompt passes over empty
lines and its body is trimmed, so its title, tags and body are the same; and the body is all that
the sequence is made of.
-/

namespace PlainSteps

namespace Prompt

/-- An empty line at the end shows in the body alone, and is trimmed there. -/
theorem readHead_append_nil (ls : List Text) : ∀ h : Head, h.body = [] →
    (readHead h (ls ++ [[]])).title = (readHead h ls).title ∧
      (readHead h (ls ++ [[]])).tags = (readHead h ls).tags ∧
      Text.trim (Text.joinWith ['\n'] (readHead h (ls ++ [[]])).body) =
        Text.trim (Text.joinWith ['\n'] (readHead h ls).body) := by
  induction ls with
  | nil => exact fun _ _ => ⟨rfl, rfl, rfl⟩
  | cons line rest ih =>
    intro h hbody
    rw [List.cons_append]
    unfold readHead
    dsimp only
    split
    · exact ih h hbody
    · split
      · exact ih _ hbody
      · split
        · exact ih _ hbody
        · split
          · exact ih _ hbody
          · -- here the body begins
            exact ⟨rfl, rfl, Text.trim_joinWith_append_nil (List.cons_ne_nil line rest)⟩

/-- **Joining the lines of a prompt anew changes nothing in it.** -/
theorem parse_joinLines (t file : Text) :
    parse (Text.joinWith ['\n'] (Text.lines t)) file = parse t file := by
  rcases Text.lines_joinWith_lines t with hsame | hempty
  · unfold parse
    rw [← hsame]
  · obtain ⟨htitle, htags, hbody⟩ :=
      readHead_append_nil (Text.lines (Text.joinWith ['\n'] (Text.lines t))) {} rfl
    rw [← hempty] at htitle htags hbody
    unfold parse
    dsimp only
    rw [htitle, htags, hbody]

/-- **Reading a prompt from a file changes nothing in it.** -/
theorem parse_unifyNewlines (t file : Text) : parse (Text.unifyNewlines t) file = parse t file := by
  unfold parse
  rw [Text.lines_unifyNewlines]

end Prompt

namespace Compiler

variable (c : Compiler)

/-- What a prompt compiles to depends on its body alone. -/
theorem compile_congr {t t' : Text} (h : (Prompt.parse t' []).body = (Prompt.parse t []).body) :
    c.compile t' = c.compile t := by
  unfold compile
  dsimp only
  rw [h]

/-- The prompt of a file with its steps and the sequence that its text compiles to. -/
def compilationOf (t file : Text) : Except GenerationError Compilation :=
  (c.compile t).result.map
    (Compilation.mk (Prompt.parse t file) (Prompt.units (Prompt.parse t file).body))

/-- The prompt of a file compiles to the sequence of its text. -/
theorem compilePrompt_eq_compilationOf (t file : Text) :
    (c.compilePrompt t file).result = c.compilationOf t file := by
  rw [compilePrompt_result, compilationOf, compile_result]
  rfl

theorem compilationOf_unifyNewlines (t file : Text) :
    c.compilationOf (Text.unifyNewlines t) file = c.compilationOf t file := by
  have hbody : (Prompt.parse (Text.unifyNewlines t) []).body = (Prompt.parse t []).body :=
    congrArg Prompt.body (Prompt.parse_unifyNewlines t [])
  unfold compilationOf
  rw [c.compile_congr hbody, Prompt.parse_unifyNewlines]

end Compiler

/-- A file with a text, as it was written, stands at a path and may be used. -/
structure Files.Holds (f : Files) (path t : Text) : Prop where
  found : f.find path = .ok (.file (.text t))
  allowed : f.refusal path = none

theorem Files.Holds.readText {f : Files} {path t : Text} (h : f.Holds path t) :
    f.readText path = .ok (Text.unifyNewlines t) := by
  rw [Files.readText_of_file h.found, h.allowed]
  rfl

namespace Pipeline

open Script

variable {p : Pipeline} {path t : Text}

/-- Prompts that are shown are the compilations of the texts in their files, up to the first that
fails. -/
theorem compileOnly_result (prompts : List (Text × Text))
    (h : ∀ x ∈ prompts, p.files.Holds x.1 x.2) :
    (p.compileOnly (prompts.map Prod.fst)).result =
      (prompts.mapM fun x => (p.compiler.compilationOf x.2 x.1).map (x.1, ·)).mapError
        .generation := by
  induction prompts with
  | nil => rfl
  | cons x rest ih =>
    obtain ⟨path, t⟩ := x
    have hread : p.files.readText path = .ok (Text.unifyNewlines t) :=
      (h (path, t) (.head _)).readText
    have hrest := ih fun y hy => h y (.tail _ hy)
    have hcompiled : (p.compiler.compilePrompt (Text.unifyNewlines t) path).result =
        p.compiler.compilationOf t path := by
      rw [Compiler.compilePrompt_eq_compilationOf, Compiler.compilationOf_unifyNewlines]
    rw [List.map_cons, compileOnly, hread, List.mapM_cons]
    simp only [Trying.result_bind, Trying.result_mk, Trying.result_adapt, Trying.result_pure,
      mapError_ok, Except.bind, hcompiled, hrest]
    cases p.compiler.compilationOf t path with
    | error e => rfl
    | ok k =>
      cases rest.mapM fun x => (p.compiler.compilationOf x.2 x.1).map (x.1, ·) with
      | error e => rfl
      | ok later => rfl

/-- The prompt of the state in which a file begins compiles to the compilation of its text. -/
theorem compilePrompt_beginning :
    (p.compiler.compilePrompt (p.beginning path (Text.unifyNewlines t)).input
    (p.beginning path (Text.unifyNewlines t)).prompt.file).result =
      p.compiler.compilationOf t path :=
  (p.compiler.compilePrompt_eq_compilationOf _ path).trans
    (p.compiler.compilationOf_unifyNewlines t path)

/-- A prompt that compiles comes through all stages when its own sequence runs on every browser. -/
theorem stages_beginning_ok_iff {σ : Type} {h : Host σ} {st st' : σ} {s : State}
    {calls : List Request} :
    (p.stages (p.beginning path (Text.unifyNewlines t))).Plays h st (.ok s) st' calls ↔
      ∃ c o, p.compiler.compilationOf t path = .ok c ∧
        (Session.runAll p.session c.sequence c.prompt p.browsers p.parallel).Plays h st
          (.ok o) st' calls ∧
        s = validated (executed (compiled (p.beginning path (Text.unifyNewlines t)) c) o) := by
  rw [stages_ok_iff, compilePrompt_beginning]
  rfl

/-- **A prompt compiles alike wherever it is read.** Line ends as a file leaves them, and lines
joined anew, change neither the compilation of a text, told lines included, nor the title, tags and
body of its prompt; the prompt of a file has the sequence of its text. So prompts in files, whatever
their line ends, are shown with the sequences of their texts, and in the pipeline the stage of
compilation hands the same sequences on to the browsers. -/
theorem compiles_alike :
    (∀ (c : Compiler) (t file : Text),
      (c.compilePrompt t file).result = c.compilationOf t file ∧
      (c.compilationOf t file).map Compilation.sequence = (c.compile t).result ∧
      ∀ t' ∈ [Text.unifyNewlines t, Text.joinWith ['\n'] (Text.lines t)],
        c.compile t' = c.compile t ∧ Prompt.parse t' file = Prompt.parse t file) ∧
    ∀ (p : Pipeline) (prompts : List (Text × Text)), (∀ x ∈ prompts, p.files.Holds x.1 x.2) →
      (p.compileOnly (prompts.map Prod.fst)).result =
        (prompts.mapM fun x => (p.compiler.compilationOf x.2 x.1).map (x.1, ·)).mapError
          .generation ∧
      ∀ x ∈ prompts, ∃ s, p.start x.1 = .ok s ∧ ∀ (σ : Type) (h : Host σ) (st : σ),
        (p.compileStage s).Plays h st
          (((p.compiler.compilationOf x.2 x.1).mapError GenerationError.message).map
            (compiled s)) st [] ∧
        ∀ t st' calls, (p.stages s).Plays h st (.ok t) st' calls ↔
          ∃ c o, p.compiler.compilationOf x.2 x.1 = .ok c ∧
            (Session.runAll p.session c.sequence c.prompt p.browsers p.parallel).Plays h st
              (.ok o) st' calls ∧
            t = validated (executed (compiled s c) o) := by
  constructor
  · intro c t file
    refine ⟨c.compilePrompt_eq_compilationOf t file, ?_, ?_⟩
    · unfold Compiler.compilationOf
      cases (c.compile t).result with
      | error e => rfl
      | ok s => rfl
    · intro t' ht'
      -- the prompt that is read does not tell the two forms of the text apart
      have hparse : ∀ file, Prompt.parse t' file = Prompt.parse t file := by
        rcases List.mem_cons.mp ht' with rfl | hjoined
        · exact Prompt.parse_unifyNewlines t
        · rw [List.mem_singleton.mp hjoined]
          exact Prompt.parse_joinLines t
      exact ⟨c.compile_congr (congrArg Prompt.body (hparse [])), hparse file⟩
  · intro p prompts hholds
    refine ⟨compileOnly_result prompts hholds, fun x hx => ?_⟩
    exact ⟨_, start_ok_iff.mpr ⟨_, (hholds x hx).readText, rfl⟩,
      fun σ h st => ⟨compilePrompt_beginning ▸ compileStage_plays h st _,
        fun t st' calls => stages_beginning_ok_iff⟩⟩

/-- A prompt with two kinds of line ends. -/
def mixedEnds : Text := "Title: T\r\n\r1. Wait 5 ms\r\n2. Wait 6 ms\r"

/-- A pipeline with that prompt in a file. -/
def mixed : Pipeline :=
  { config := { name := "demo", baseUrl := "http://a" }
    browsers := ["chromium"]
    files := .ofEntries [("p.txt", .file (.text mixedEnds))]
    now := ⟨2024, 1, 2, 3, 4, 5⟩ }

/-- It is shown with the two actions of its text. -/
theorem compiles_alike_mixed :
    ∃ k, (mixed.compileOnly ["p.txt"]).result = .ok [("p.txt".toList, k)] ∧
      (mixed.compiler.compile mixedEnds).result = .ok k.sequence ∧
      k.prompt.title = "T".toList ∧ k.sequence.actions.length = 2 := by
  have hsequence : (mixed.compiler.compile mixedEnds).result =
      .ok ⟨[Action.wait 5 "Step 1: Wait 5ms", Action.wait 6 "Step 2: Wait 6ms"]⟩ := rfl
  obtain ⟨-, hfiles⟩ := compiles_alike
  have hholds : mixed.files.Holds "p.txt" mixedEnds := ⟨rfl, rfl⟩
  obtain ⟨hshown, -⟩ := hfiles mixed [("p.txt", mixedEnds)] (List.forall_mem_singleton.mpr hholds)
  unfold Compiler.compilationOf at hshown
  rw [List.mapM_cons, hsequence] at hshown
  exact ⟨_, hshown, hsequence, by decide +kernel, rfl⟩

end Pipeline

end PlainSteps
