import PlainSteps.Pipeline
import PlainSteps.Proofs.Browser.EveryBrowser
import PlainSteps.Proofs.Compilation.Blocks

/-! # When a prompt succeeds

A prompt that fails in any stage is brought back to its start, with the error: it has no runs then,
and cannot count as a success. So a state is a success only behind the last stage, and there it is
one just when every run is. By the meaning of a run's verdict, the states of a list of prompts are
all successes just when every prompt passes: it can be read and compiled, and its sessions pass on
all browsers.
-/

namespace PlainSteps.Pipeline

open Script

variable {σ β : Type} {h : Host σ} {st st' : σ} {calls : List Request} {p : Pipeline}

theorem plays_tellAll_bind_iff {lines : List Text} {f : Unit → Script β} {b : β} :
    (tellAll lines >>= f).Plays h st b st' calls ↔ (f ()).Plays h st b st' calls := by
  have hshift : tellAll lines >>= f = Session.telling lines (f ()) := by
    induction lines with
    | nil => rfl
    | cons line rest ih => exact congrArg (Script.say line) ih
  rw [hshift, plays_telling_iff]

/-! ### Stages -/

/-- A state with its prompt compiled. -/
def compiled (s : State) (c : Compilation) : State :=
  { s with prompt := c.prompt, units := c.units, sequence := c.sequence, compiled := true }

/-- A state with its sequence run. -/
def executed (s : State) (o : Session.Outcome) : State :=
  { s with runs := o.runs, executed := true, executorConfidence := o.confidence }

/-- A state with its runs validated. -/
def validated (s : State) : State :=
  let (verdicts, confidence) := (Validation.validate s.runs).value
  { s with verdicts, validated := true, validatorConfidence := confidence }

/-- The stage of compilation hands on what the prompt compiles to, and asks nothing of the
browser. -/
theorem compileStage_plays (h : Host σ) (st : σ) (s : State) :
    (p.compileStage s).Plays h st
      (((p.compiler.compilePrompt s.input s.prompt.file).result.mapError
        GenerationError.message).map (compiled s))
      st [] := by
  unfold compileStage
  dsimp only
  rw [plays_tell_bind_iff, plays_tellAll_bind_iff, plays_pure_iff]
  refine ⟨?_, rfl, rfl⟩
  unfold Trying.result
  cases (p.compiler.compilePrompt s.input s.prompt.file).run.value with
  | error e => rfl
  | ok c => rfl

theorem compileStage_ok_iff {s t : State} :
    (p.compileStage s).Plays h st (.ok t) st' calls ↔
      ∃ c, (p.compiler.compilePrompt s.input s.prompt.file).result = .ok c ∧ t = compiled s c ∧
        st' = st ∧ calls = [] := by
  unfold compileStage
  dsimp only
  rw [plays_tell_bind_iff, plays_tellAll_bind_iff, plays_pure_iff]
  unfold Trying.result
  cases (p.compiler.compilePrompt s.input s.prompt.file).run.value with
  | error e => simp
  | ok c => simp [compiled]

theorem executeStage_ok_iff {s t : State} :
    (p.executeStage s).Plays h st (.ok t) st' calls ↔
      ∃ o, (Session.runAll p.session s.sequence s.prompt s.browsers s.parallel).Plays h st
        (.ok o) st' calls ∧
        t = executed s o := by
  unfold executeStage
  rw [plays_tell_bind_iff, plays_bind_iff]
  constructor
  · rintro ⟨outcome, st₁, own, later, hrun, hlater, rfl⟩
    cases outcome with
    | error e => cases (plays_pure_iff.mp hlater).1
    | ok o =>
      simp only [plays_tell_bind_iff, plays_pure_iff] at hlater
      obtain ⟨ht, rfl, rfl⟩ := hlater
      cases ht
      exact ⟨o, by rwa [List.append_nil], rfl⟩
  · rintro ⟨o, hrun, rfl⟩
    exact ⟨.ok o, st', calls, [], hrun,
      plays_tell_bind_iff.mpr (plays_pure_iff.mpr ⟨rfl, rfl, rfl⟩), (List.append_nil calls).symm⟩

theorem validateStage_iff {s t : State} :
    (validateStage s).Plays h st t st' calls ↔ t = validated s ∧ st' = st ∧ calls = [] := by
  unfold validateStage
  dsimp only
  rw [plays_tell_bind_iff, plays_tellAll_bind_iff, plays_tell_bind_iff, plays_pure_iff]
  rfl

/-- A prompt comes through all stages when it compiles and every session ends with a result. -/
theorem stages_ok_iff {s t : State} :
    (p.stages s).Plays h st (.ok t) st' calls ↔
      ∃ c o, (p.compiler.compilePrompt s.input s.prompt.file).result = .ok c ∧
        (Session.runAll p.session c.sequence c.prompt s.browsers s.parallel).Plays h st
          (.ok o) st' calls ∧
        t = validated (executed (compiled s c) o) := by
  unfold stages
  rw [plays_bind_iff]
  constructor
  · rintro ⟨outcome, st₁, own, later, hcompile, hlater, rfl⟩
    cases outcome with
    | error e => cases (plays_pure_iff.mp hlater).1
    | ok s₁ =>
      obtain ⟨c, hc, rfl, rfl, rfl⟩ := compileStage_ok_iff.mp hcompile
      obtain ⟨outcome, st₂, before, after, hexecute, hlast, rfl⟩ := plays_bind_iff.mp hlater
      cases outcome with
      | error e => cases (plays_pure_iff.mp hlast).1
      | ok s₂ =>
        obtain ⟨o, ho, rfl⟩ := executeStage_ok_iff.mp hexecute
        obtain ⟨s₃, st₃, _, _, hvalidate, hdone, rfl⟩ := plays_bind_iff.mp hlast
        obtain ⟨rfl, rfl, rfl⟩ := validateStage_iff.mp hvalidate
        obtain ⟨ht, rfl, rfl⟩ := plays_pure_iff.mp hdone
        cases ht
        rw [List.append_nil, List.append_nil]
        exact ⟨c, o, hc, ho, rfl⟩
  · rintro ⟨c, o, hc, ho, rfl⟩
    have hvalidate : (do return Except.ok (← validateStage (executed (compiled s c) o)) :
        Script (Except Text State)).Plays h st' (.ok
          (validated (executed (compiled s c) o))) st' [] :=
      plays_bind_iff.mpr ⟨_, st', [], [], validateStage_iff.mpr ⟨rfl, rfl, rfl⟩,
        plays_pure_iff.mpr ⟨rfl, rfl, rfl⟩, rfl⟩
    exact ⟨.ok (compiled s c), st, [], calls, compileStage_ok_iff.mpr ⟨c, hc, rfl, rfl, rfl⟩,
      plays_bind_iff.mpr ⟨.ok (executed (compiled s c) o), st', calls, [],
        executeStage_ok_iff.mpr ⟨o, ho, rfl⟩, hvalidate, (List.append_nil calls).symm⟩, rfl⟩

/-- A prompt ends behind its last stage, or where it began with an error. -/
theorem runPrompt_iff {s t : State} :
    (p.runPrompt s).Plays h st t st' calls ↔
      (p.stages s).Plays h st (.ok t) st' calls ∨
        ∃ e, (p.stages s).Plays h st (.error e) st' calls ∧ t = { s with error := some e } := by
  unfold runPrompt
  rw [plays_bind_iff]
  constructor
  · rintro ⟨outcome, st₁, own, later, hstages, hlater, rfl⟩
    cases outcome with
    | error e =>
      simp only [plays_tell_bind_iff, plays_pure_iff] at hlater
      obtain ⟨rfl, rfl, rfl⟩ := hlater
      exact .inr ⟨e, by rwa [List.append_nil], rfl⟩
    | ok done =>
      obtain ⟨rfl, rfl, rfl⟩ := plays_pure_iff.mp hlater
      exact .inl (by rwa [List.append_nil])
  · rintro (hstages | ⟨e, hstages, rfl⟩)
    · exact ⟨.ok t, st', calls, [], hstages, plays_pure_iff.mpr ⟨rfl, rfl, rfl⟩,
        (List.append_nil calls).symm⟩
    · exact ⟨.error e, st', calls, [], hstages,
        plays_tell_bind_iff.mpr (plays_pure_iff.mpr ⟨rfl, rfl, rfl⟩), (List.append_nil calls).symm⟩

/-- A prompt ends with the runs of its sessions, or where it began with an error. -/
theorem runPrompt_runs {s t : State} (hp : (p.runPrompt s).Plays h st t st' calls) :
    (∃ c runs, (p.compiler.compilePrompt s.input s.prompt.file).result = .ok c ∧
        (Session.inTurn (Session.run p.session c.sequence c.prompt)
          (selectBrowsers s.browsers).value).Plays h st
          (.ok runs) st' calls ∧
        t = validated (executed (compiled s c) ⟨runs, Session.confidence runs⟩)) ∨
      ∃ e, (p.stages s).Plays h st (.error e) st' calls ∧ t = { s with error := some e } := by
  rcases runPrompt_iff.mp hp with hstages | herror
  · obtain ⟨c, o, hc, ho, rfl⟩ := stages_ok_iff.mp hstages
    obtain ⟨runs, hruns, rfl⟩ := Session.runAll_ok_iff.mp ho
    exact .inl ⟨c, runs, hc, hruns, rfl⟩
  · exact .inr herror

/-! ### Success -/

/-- An error is never a success, whatever it says. -/
theorem not_isSuccess_of_error {s : State} (herror : s.error ≠ none) : s.isSuccess = false := by
  unfold State.isSuccess
  cases hs : s.error with
  | none => exact absurd hs herror
  | some e => rfl

/-- Behind the last stage a state is a success just when there are runs and all succeeded. -/
theorem isSuccess_validated_iff {s : State} {c : Compilation} {o : Session.Outcome}
    (hs : s.error = none) :
    (validated (executed (compiled s c) o)).isSuccess = true ↔ o.runs ≠ [] ∧ ∀ r ∈ o.runs,
      r.success = true := by
  have herror : (validated (executed (compiled s c) o)).error = none := hs
  have hruns : (validated (executed (compiled s c) o)).runs = o.runs := rfl
  simp [State.isSuccess, herror, hruns]

/-- A prompt passes when it can be read and compiles to at least one action, and its sessions pass
on all browsers, one by one. -/
def Passes (h : Host σ) (p : Pipeline) (path : Text) (st st' : σ) : Prop :=
  ∃ input c, p.files.readText path = .ok input ∧ (p.compiler.compilePrompt input path).result =
    .ok c ∧
    c.sequence.actions ≠ [] ∧
    OneByOne (Session.Passes h p.session c.sequence c.prompt) p.browsers st st'

/-- The state in which a prompt with a text begins. -/
def beginning (p : Pipeline) (path input : Text) : State :=
  { prompt := { file := path }, app := Text.lower p.config.name, browsers := p.browsers
    headed := p.headed, parallel := p.parallel, timestamp := p.now.stamp, input }

theorem start_ok_iff {path : Text} {s : State} :
    p.start path = .ok s ↔ ∃ input, p.files.readText path = .ok input ∧
    s = p.beginning path input := by
  unfold start
  cases p.files.readText path with
  | error e => exact iff_of_false nofun (by rintro ⟨_, hread, -⟩; cases hread)
  | ok input =>
    constructor
    · intro hs
      cases hs
      exact ⟨input, rfl, rfl⟩
    · rintro ⟨_, hread, rfl⟩
      cases hread
      rfl

theorem start_error_iff {path : Text} {e : FileError} :
    p.start path = .error e ↔ p.files.readText path = .error e := by
  unfold start
  cases p.files.readText path with
  | error d => exact ⟨fun h => by cases h; rfl, fun h => by cases h; rfl⟩
  | ok input => exact iff_of_false nofun nofun

/-- The error of the first prompt among many that cannot be read. -/
def FirstUnreadable (f : Files) (paths : List Text) (e : FileError) : Prop :=
  ∃ before path rest, paths = before ++ path :: rest ∧ (∀ b ∈ before, ∃ t, f.readText b = .ok t) ∧
    f.readText path = .error e

theorem not_firstUnreadable_nil {f : Files} {e : FileError} : ¬ FirstUnreadable f [] e := by
  rintro ⟨before, path, rest, hsplit, -⟩
  exact List.append_ne_nil_of_right_ne_nil before (List.cons_ne_nil path rest) hsplit.symm

theorem firstUnreadable_cons_iff {f : Files} {path : Text} {rest : List Text} {e : FileError} :
    FirstUnreadable f (path :: rest) e ↔
      f.readText path = .error e ∨ (∃ t, f.readText path = .ok t) ∧ FirstUnreadable f rest e := by
  constructor
  · rintro ⟨before, path', rest', hsplit, hbefore, herror⟩
    cases before with
    | nil =>
      cases hsplit
      exact .inl herror
    | cons b before =>
      cases hsplit
      obtain ⟨hb, hbefore⟩ := List.forall_mem_cons.mp hbefore
      exact .inr ⟨hb, before, path', rest', rfl, hbefore, herror⟩
  · rintro (herror | ⟨hread, before, path', rest', rfl, hbefore, herror⟩)
    · exact ⟨[], path, rest, rfl, nofun, herror⟩
    · exact ⟨path :: before, path', rest', rfl, List.forall_mem_cons.mpr ⟨hread, hbefore⟩, herror⟩

/-- Either all prompts can be read, or there is a first one that cannot. -/
theorem forall_readable_or_firstUnreadable (f : Files) (paths : List Text) :
    (∀ path ∈ paths, ∃ t, f.readText path = .ok t) ∨ ∃ e, FirstUnreadable f paths e := by
  induction paths with
  | nil => exact .inl (List.forall_mem_nil _)
  | cons path rest ih =>
    cases hread : f.readText path with
    | error e => exact .inr ⟨e, firstUnreadable_cons_iff.mpr (.inl hread)⟩
    | ok t =>
      rcases ih with hrest | ⟨e, hrest⟩
      · exact .inl (List.forall_mem_cons.mpr ⟨⟨t, hread⟩, hrest⟩)
      · exact .inr ⟨e, firstUnreadable_cons_iff.mpr (.inr ⟨⟨t, hread⟩, hrest⟩)⟩

variable (hchosen : selectBrowsers p.browsers = pure p.browsers)

include hchosen

/-- A prompt passes just when it ends as a success. -/
theorem passes_iff (path : Text) :
    Passes h p path st st' ↔
      ∃ s t calls, p.start path = .ok s ∧ (p.runPrompt s).Plays h st t st' calls ∧
      t.isSuccess = true := by
  have hvalue : (selectBrowsers p.browsers).value = p.browsers := congrArg Told.value hchosen
  have hbrowsers : p.browsers ≠ [] := hvalue ▸ (selectBrowsers_known p.browsers).1
  constructor
  · rintro ⟨input, c, hread, hc, hseq, hall⟩
    obtain ⟨runs, calls, hruns, hsuccess⟩ := (Session.oneByOne_passes_iff hseq).mp hall
    have hne : runs ≠ [] := Session.ne_nil_of_inTurn hbrowsers hruns
    have hrunAll : (Session.runAll p.session c.sequence c.prompt p.browsers p.parallel).Plays h st
        (.ok ⟨runs, Session.confidence runs⟩) st' calls :=
      Session.runAll_ok_iff.mpr ⟨runs, hvalue.symm ▸ hruns, rfl⟩
    exact ⟨p.beginning path input, _, calls, start_ok_iff.mpr ⟨input, hread, rfl⟩,
      runPrompt_iff.mpr (.inl (stages_ok_iff.mpr ⟨c, _, hc, hrunAll, rfl⟩)),
      (isSuccess_validated_iff rfl).mpr ⟨hne, hsuccess⟩⟩
  · rintro ⟨s, t, calls, hstart, hrun, hsuccess⟩
    obtain ⟨input, hread, rfl⟩ := start_ok_iff.mp hstart
    rcases runPrompt_runs hrun with ⟨c, runs, hc, hruns, rfl⟩ | ⟨e, -, rfl⟩
    · rw [show (selectBrowsers (p.beginning path input).browsers).value = p.browsers from hvalue]
        at hruns
      have hseq := Compiler.compilePrompt_ne_nil hc
      have hall := ((isSuccess_validated_iff rfl).mp hsuccess).2
      exact ⟨input, c, hread, hc, hseq, (Session.oneByOne_passes_iff hseq).mpr
        ⟨runs, calls, hruns, hall⟩⟩
    · -- a prompt that ends with an error is no success, even if the error says nothing
      rw [not_isSuccess_of_error (Option.some_ne_none e)] at hsuccess
      cases hsuccess

omit hchosen in
theorem runFrom_cons_ok_iff {total n : Nat} {path : Text} {rest : List Text} {states : List State} :
    (p.runFrom total n (path :: rest)).Plays h st (.ok states) st' calls ↔
      ∃ s t others st₁ own later, p.start path = .ok s ∧ (p.runPrompt s).Plays h st t st₁ own ∧
        (p.runFrom total (n + 1) rest).Plays h st₁ (.ok others) st' later ∧ states = t :: others ∧
        calls = own ++ later := by
  rw [runFrom, plays_tell_bind_iff, plays_tell_bind_iff, plays_tell_bind_iff]
  cases p.start path with
  | error e =>
    refine iff_of_false (fun hplay => ?_) (by rintro ⟨_, _, _, _, _, _, hstart, -⟩; cases hstart)
    cases (plays_pure_iff.mp hplay).1
  | ok s =>
    rw [plays_bind_iff]
    constructor
    · rintro ⟨t, st₁, own, later, hrun, hlater, rfl⟩
      obtain ⟨others, hrest, rfl⟩ := plays_map_ok_iff.mp hlater
      exact ⟨s, t, others, st₁, own, later, rfl, hrun, hrest, rfl, rfl⟩
    · rintro ⟨_, t, others, st₁, own, later, hstart, hrun, hrest, rfl, rfl⟩
      cases hstart
      exact ⟨t, st₁, own, later, hrun, plays_map_ok_iff.mpr ⟨others, hrest, rfl⟩, rfl⟩

omit hchosen in
/-- Every state is that of a prompt behind the pipeline. -/
theorem exists_runPrompt_of_runFrom {total n : Nat} {paths : List Text} {states : List State}
    (hp : (p.runFrom total n paths).Plays h st (.ok states) st' calls) {t : State}
    (ht : t ∈ states) :
    ∃ path ∈ paths, ∃ s st₁ st₂ own, p.start path = .ok s ∧
      (p.runPrompt s).Plays h st₁ t st₂ own := by
  induction paths generalizing st n states calls with
  | nil =>
    obtain ⟨hstates, -, -⟩ := plays_pure_iff.mp hp
    cases hstates
    cases ht
  | cons path rest ih =>
    obtain ⟨s, first, others, st₁, own, _, hstart, hrun, hothers, rfl, -⟩ :=
      runFrom_cons_ok_iff.mp hp
    rcases List.mem_cons.mp ht with rfl | ht
    · exact ⟨path, .head rest, s, st, st₁, own, hstart, hrun⟩
    · obtain ⟨path', hpath', hplays⟩ := ih hothers ht
      exact ⟨path', .tail path hpath', hplays⟩

/-- All prompts pass just when each ends as a success. -/
theorem oneByOne_passes_iff (total : Nat) {n : Nat} {paths : List Text} :
    OneByOne (Passes h p) paths st st' ↔
      ∃ states calls, (p.runFrom total n paths).Plays h st (.ok states) st' calls ∧
        ∀ t ∈ states, t.isSuccess = true := by
  induction paths generalizing st n with
  | nil =>
    constructor
    · rintro ⟨-⟩
      exact ⟨[], [], plays_pure_iff.mpr ⟨rfl, rfl, rfl⟩, by simp⟩
    · rintro ⟨states, calls, hplay, -⟩
      obtain ⟨-, rfl, -⟩ := plays_pure_iff.mp hplay
      exact .nil st'
  | cons path rest ih =>
    simp only [runFrom_cons_ok_iff]
    constructor
    · rintro (_ | ⟨hfirst, hnext⟩)
      obtain ⟨s, t, own, hstart, hrun, hsuccess⟩ := (passes_iff hchosen path).mp hfirst
      obtain ⟨others, later, hothers, hall⟩ := ih.mp hnext
      refine ⟨t :: others, own ++ later,
        ⟨s, t, others, _, own, later, hstart, hrun, hothers, rfl, rfl⟩, ?_⟩
      intro x hx
      rcases List.mem_cons.mp hx with rfl | hx
      · exact hsuccess
      · exact hall x hx
    · rintro ⟨_, _, ⟨s, t, others, st₁, own, later, hstart, hrun, hothers, rfl, rfl⟩, hall⟩
      have hfirst : Passes h p path st st₁ :=
        (passes_iff hchosen path).mpr ⟨s, t, own, hstart, hrun, hall t (.head _)⟩
      exact .cons hfirst (ih.mpr ⟨others, later, hothers, fun x hx => hall x (.tail _ hx)⟩)

end PlainSteps.Pipeline
