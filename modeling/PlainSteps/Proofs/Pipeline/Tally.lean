import PlainSteps.Proofs.Pipeline.Accounting
import PlainSteps.Proofs.Validation.Agreement

/-! # The numbers of a report

A report counts again what a run has said already: its passed and its failed steps, against the
number of actions of its prompt. The numbers fit because there are three ways for a run to end:
through all its actions, at the one that failed, or without steps and with an error. An entry of a
report is read off the way in which its run ended, and every run that comes out of the pipeline is
one of the sequence in its own state.
-/

namespace PlainSteps

open Script Execution

/-! ### Three ways to end -/

/-- A run of a sequence ends with all steps passed, or with those in front of the one that failed,
or it has no steps and an error. -/
inductive Run.Counted (seq : Sequence) (r : Run) : Prop where
  | through (success : r.success = true)
      (statuses : r.steps.map (·.status) = List.replicate seq.actions.length StepResult.passed)
  | failed {k : Nat} (inside : k < seq.actions.length) (noSuccess : r.success = false)
      (numbered : ∀ (i : Nat) (x : StepResult), r.steps[i]? = some x → x.step = i + 1)
      (statuses : r.steps.map (·.status) = List.replicate k StepResult.passed ++
        StepResult.failed :: List.replicate (seq.actions.length - k - 1) StepResult.skipped)
  | broken (noSteps : r.steps = []) (noSuccess : r.success = false) (error : r.error ≠ none)

section Counts

variable {r : Run}

theorem Run.count_eq (r : Run) (status : Text) :
    r.count status = (r.steps.map (·.status)).count status := by
  rw [List.count, List.countP_map]
  rfl

theorem StepResult.skipped_ne_passed : StepResult.skipped ≠ StepResult.passed := by decide

/-- All steps passed, and so many as were counted. -/
theorem counts_of_passed {n : Nat}
    (h : r.steps.map (·.status) = List.replicate n StepResult.passed) :
    r.count StepResult.passed = n ∧ r.count StepResult.failed = 0 := by
  rw [r.count_eq, r.count_eq, h]
  exact ⟨List.count_replicate_self, List.count_eq_zero.mpr fun hmem =>
    StepResult.passed_ne_failed (List.eq_of_mem_replicate hmem).symm⟩

/-- Of steps up to a failure, those in front of it passed and it alone failed. -/
theorem counts_of_failed {k m : Nat}
    (h : r.steps.map (·.status) = List.replicate k StepResult.passed ++ StepResult.failed ::
      List.replicate m StepResult.skipped) :
    r.count StepResult.passed = k ∧ r.count StepResult.failed = 1 := by
  have hskipped : ∀ status, StepResult.skipped ≠ status →
      (List.replicate m StepResult.skipped).count status = 0 :=
    fun status hne => List.count_eq_zero.mpr fun hmem => hne (List.eq_of_mem_replicate hmem).symm
  have hpassed : (List.replicate k StepResult.passed).count StepResult.failed = 0 :=
    List.count_eq_zero.mpr fun hmem =>
      StepResult.passed_ne_failed (List.eq_of_mem_replicate hmem).symm
  rw [r.count_eq, r.count_eq, h, List.count_append, List.count_append, hpassed,
    List.count_replicate_self, List.count_cons_of_ne StepResult.passed_ne_failed.symm,
    List.count_cons_self, hskipped _ StepResult.skipped_ne_passed,
      hskipped _ StepResult.skipped_ne_failed]
  exact ⟨Nat.add_zero k, rfl⟩

/-- It stands behind them. -/
theorem filter_of_failed {k m : Nat} {results : List StepResult}
    (h : results.map (·.status) = List.replicate k StepResult.passed ++
      StepResult.failed :: List.replicate m StepResult.skipped) :
    ∃ f, results[k]? = some f ∧ results.filter (·.status == StepResult.failed) = [f] := by
  obtain ⟨before, rest, rfl, hbefore, hrest⟩ := List.map_eq_append_iff.mp h
  obtain ⟨f, after, rfl, hf, hafter⟩ := List.map_eq_cons_iff.mp hrest
  have hlength : before.length = k := by simpa using congrArg List.length hbefore
  have hnone : ∀ {status : Text} {n : Nat} {l : List StepResult}, status ≠ StepResult.failed →
      l.map (·.status) = List.replicate n status →
      l.filter (·.status == StepResult.failed) = [] := by
    intro status n l hne hl
    refine List.filter_eq_nil_iff.mpr fun x hx => ?_
    have hmem : x.status ∈ l.map (·.status) := List.mem_map_of_mem hx
    rw [hl] at hmem
    simpa [List.eq_of_mem_replicate hmem] using hne
  refine ⟨f, ?_, ?_⟩
  · rw [← hlength]
    simp
  · rw [List.filter_append, hnone StepResult.passed_ne_failed hbefore, List.nil_append,
      List.filter_cons_of_pos (by simpa using hf), hnone StepResult.skipped_ne_failed hafter]

end Counts

/-- How a run ended has nothing to do with the time it took. -/
theorem Run.Counted.of_timeless {seq : Sequence} {r r' : Run} (h : r.Counted seq)
    (heq : r.timeless = r'.timeless) : r'.Counted seq := by
  have hsteps : r.steps.map StepResult.timeless = r'.steps.map StepResult.timeless :=
    congrArg Run.steps heq
  have hsuccess : r.success = r'.success := (congrArg Run.success heq :)
  have herror : r.error = r'.error := (congrArg Run.error heq :)
  have hstatuses : r.steps.map (·.status) = r'.steps.map (·.status) := by
    have := congrArg (List.map StepResult.status) hsteps
    rwa [List.map_map, List.map_map] at this
  cases h with
  | through success statuses => exact .through (hsuccess ▸ success) (hstatuses ▸ statuses)
  | failed inside noSuccess numbered statuses =>
    refine .failed inside (hsuccess ▸ noSuccess) (fun i x hx => ?_) (hstatuses ▸ statuses)
    have hnumbers : r.steps.map (·.step) = r'.steps.map (·.step) := by
      have := congrArg (List.map StepResult.step) hsteps
      rwa [List.map_map, List.map_map] at this
    have hplace := congrArg (·[i]?) hnumbers
    simp only [List.getElem?_map, hx, Option.map_some] at hplace
    obtain ⟨y, hy, hstep⟩ := Option.map_eq_some_iff.mp hplace
    rw [← hstep, numbered i y hy]
  | broken noSteps noSuccess error =>
    refine .broken ?_ (hsuccess ▸ noSuccess) (herror ▸ error)
    rw [noSteps] at hsteps
    exact List.map_eq_nil_iff.mp hsteps.symm

namespace Session

variable {σ : Type} {h : Host σ} {s : Setting} {seq : Sequence} {prompt : Prompt} {st st' : σ}
  {calls : List Request}

/-- A session that ends with a run ends in one of the three ways. -/
theorem counted_of_plays {browser : Text} {r : Run}
    (hp : (run s seq prompt browser).Plays h st (.ok r) st' calls) : r.Counted seq := by
  rcases run_plays hp with ⟨f, duration, -, -, rfl⟩ | ⟨results, duration, hsteps, rfl⟩
  · exact .broken rfl rfl (Option.some_ne_none _)
  · obtain ⟨st₁, own, hruns, -⟩ := steps_plays hsteps
    have hfast : FailFast seq.actions results := hruns.failFast
    have hsuccess : (finished prompt browser duration results).success = true ↔
        ∀ x ∈ results, x.status ≠ StepResult.failed := (finished_verdict hfast).1
    rcases hfast.statuses with hall | ⟨k, hk, hone⟩
    · refine .through (hsuccess.mpr fun x hx hxf => ?_) hall
      have hmem : x.status ∈ results.map (·.status) := List.mem_map_of_mem hx
      rw [hall, hxf] at hmem
      exact StepResult.passed_ne_failed (List.eq_of_mem_replicate hmem).symm
    · obtain ⟨f, -, honly⟩ := filter_of_failed hone
      obtain ⟨hf, hfailed⟩ := List.mem_filter.mp (honly ▸ List.mem_singleton_self f)
      refine .failed hk (Bool.eq_false_iff.mpr fun htrue => ?_) hfast.numbered hone
      exact hsuccess.mp htrue f hf (beq_iff_eq.mp hfailed)

theorem counted_of_inTurn {browsers : List Text} {runs : List Run}
    (hp : (inTurn (run s seq prompt) browsers).Plays h st (.ok runs) st' calls) :
    ∀ r ∈ runs, r.Counted seq := by
  intro r hr
  obtain ⟨_, -, _, _, _, hplays⟩ := exists_plays_of_inTurn hp hr
  exact counted_of_plays hplays

/-- Sessions that each end as they do alone end in one of the three ways. -/
theorem EachAlone.counted {τ : Type} {g : Pages σ τ} {n : Nat} {browsers : List Text}
    {runs : List Run} (hruns : EachAlone g s seq prompt n browsers runs) :
    ∀ r ∈ runs, r.Counted seq := by
  intro r hr
  obtain ⟨i, b, r', _, _, -, hplays, htimeless⟩ := hruns.exists_plays hr
  exact (counted_of_plays hplays).of_timeless htimeless

end Session

/-! ### Entries -/

/-- The numbers of an entry fit its verdict. A success passed all actions; a run that failed with
steps has one failure, in the step behind those that passed; and one that failed without steps has
an error. -/
structure Entry.Tallies (e : Entry) : Prop where
  success : e.run.success = true →
    e.run.count StepResult.passed = e.actions ∧ e.run.count StepResult.failed = 0 ∧ e.failures = []
  failure : e.run.success = false → e.run.steps ≠ [] →
    e.run.count StepResult.failed = 1 ∧ e.run.count StepResult.passed + 1 ≤ e.actions ∧
      ∃ f, e.failures = [f] ∧ f.step.step = e.run.count StepResult.passed + 1
  broken : e.run.success = false → e.run.steps = [] → e.run.error ≠ none

namespace Report

theorem failureOf_step (verdicts : List Verdict) (r : Run) (x : StepResult) :
    (failureOf verdicts r x).step = x := by
  unfold failureOf
  split
  all_goals rfl

/-- The entry of a run that ended in one of the three ways tallies. -/
theorem entryOf_tallies {t : State} {r : Run} (h : r.Counted t.sequence) :
    (entryOf t r).Tallies := by
  cases h with
  | through success statuses =>
    obtain ⟨hpassed, hfailed⟩ := counts_of_passed statuses
    have hnone : r.steps.filter (·.status == StepResult.failed) = [] :=
      List.filter_eq_nil_iff.mpr fun x hx => List.countP_eq_zero.mp hfailed x hx
    refine ⟨fun _ => ⟨hpassed, hfailed, ?_⟩, fun hfalse => ?_, fun hfalse => ?_⟩
    · show (r.steps.filter (·.status == StepResult.failed)).map (failureOf t.verdicts r) = []
      rw [hnone, List.map_nil]
    · cases success.symm.trans hfalse
    · cases success.symm.trans hfalse
  | @failed k inside noSuccess numbered statuses =>
    obtain ⟨hpassed, hfailed⟩ := counts_of_failed statuses
    -- there is one failed step, so that the failures of the entry are that one
    obtain ⟨f, hf, honly⟩ := filter_of_failed statuses
    refine ⟨fun htrue => ?_, fun _ _ => ⟨hfailed, ?_, failureOf t.verdicts r f, ?_, ?_⟩,
      fun _ hnil => ?_⟩
    · cases noSuccess.symm.trans htrue
    · show r.count StepResult.passed + 1 ≤ t.sequence.actions.length
      omega
    · show (r.steps.filter (·.status == StepResult.failed)).map (failureOf t.verdicts r) = _
      rw [honly, List.map_singleton]
    · show (failureOf t.verdicts r f).step.step = r.count StepResult.passed + 1
      rw [failureOf_step, numbered k f hf, hpassed]
    · rw [show r.steps = [] from hnil] at hf
      cases hf
  | broken noSteps noSuccess error =>
    refine ⟨fun htrue => ?_, fun _ hsteps => absurd noSteps hsteps, fun _ _ => error⟩
    cases noSuccess.symm.trans htrue

/-- The numbers of a report on states fit together: there is an entry for each run, in order, with
the number of actions of its prompt; the runs are those that passed and those that failed; and every
entry tallies. -/
structure Tallies (report : Report) (states : List State) : Prop where
  entries : report.entries.map (fun e => (e.run, e.actions)) =
    states.flatMap fun t => t.runs.map (·, t.sequence.actions.length)
  runs : report.runs = report.entries.length
  passed : report.passed = report.entries.countP (·.run.success)
  sum : report.passed + report.failed = report.runs
  each : ∀ e ∈ report.entries, e.Tallies

theorem ofStates_tallies (app : Text) (browsers : List Text) (parallel : Bool) (now : Moment)
    {states : List State} (h : ∀ t ∈ states, ∀ r ∈ t.runs, r.Counted t.sequence) :
    (ofStates app browsers parallel now states).Tallies states := by
  have hruns : (states.flatMap fun t => t.runs.map (entryOf t)).map (·.run) =
      states.flatMap (·.runs) := by
    rw [List.map_flatMap]
    refine List.flatMap_congr fun t _ => ?_
    rw [List.map_map]
    exact List.map_id _
  refine ⟨?_, ?_, ?_, Nat.add_sub_cancel' List.countP_le_length, ?_⟩
  · show (states.flatMap fun t => t.runs.map (entryOf t)).map _ = _
    rw [List.map_flatMap]
    refine List.flatMap_congr fun t _ => ?_
    rw [List.map_map]
    rfl
  · show (states.flatMap (·.runs)).length = _
    rw [← hruns, List.length_map]
    rfl
  · show (states.flatMap (·.runs)).countP (·.success) = _
    rw [← hruns, List.countP_map]
    rfl
  · intro e he
    obtain ⟨t, ht, hmem⟩ := List.mem_flatMap.mp he
    obtain ⟨r, hr, rfl⟩ := List.mem_map.mp hmem
    exact entryOf_tallies (h t ht r hr)

end Report

namespace Pipeline

variable {σ : Type} {h : Host σ} {st st' : σ} {calls : List Request} {p : Pipeline}

/-- The runs of a prompt behind the pipeline are runs of its own sequence. -/
theorem runPrompt_counted {path : Text} {s t : State} (hstart : p.start path = .ok s)
    (hp : (p.runPrompt s).Plays h st t st' calls) : ∀ r ∈ t.runs, r.Counted t.sequence := by
  obtain ⟨input, -, rfl⟩ := start_ok_iff.mp hstart
  rcases runPrompt_runs hp with ⟨c, runs, -, hruns, rfl⟩ | ⟨e, -, rfl⟩
  · exact Session.counted_of_inTurn hruns
  · exact List.forall_mem_nil _

theorem runFrom_counted {total n : Nat} {paths : List Text} {states : List State}
    (hp : (p.runFrom total n paths).Plays h st (.ok states) st' calls) :
    ∀ t ∈ states, ∀ r ∈ t.runs, r.Counted t.sequence := by
  intro t ht
  obtain ⟨_, -, _, _, _, _, hstart, hrun⟩ := exists_runPrompt_of_runFrom hp ht
  exact runPrompt_counted hstart hrun

/-- **The numbers of a report fit the runs it is about**, for every behaviour of the browsers:
whenever a run over prompts ends with states, and also for states whose sessions took turns in any
order. -/
theorem report_tallies (p : Pipeline) :
    (∀ {σ : Type} (h : Host σ) (paths : List Text) (st st' : σ) (states : List State)
      (calls : List Request), (p.runAll paths).Plays h st (.ok states) st' calls →
      (p.report states).Tallies states) ∧
    ∀ {σ τ : Type} (g : Pages σ τ) (states : List State),
      (∀ t ∈ states, t.runs = [] ∨ ∃ n browsers,
        Session.Gathers g.answer (Session.crewFrom g p.session t.sequence t.prompt n browsers)
          (.ok t.runs)) →
      (p.report states).Tallies states := by
  constructor
  · intro σ h paths st st' states calls hp
    exact Report.ofStates_tallies _ _ _ _ (runFrom_counted hp)
  · intro σ τ g states hturns
    refine Report.ofStates_tallies _ _ _ _ fun t ht r hr => ?_
    rcases hturns t ht with hnone | ⟨n, browsers, hgathers⟩
    · rw [hnone] at hr
      cases hr
    · rcases hgathers.alone with ⟨runs, hruns, halone⟩ | ⟨e, he, -⟩
      · cases hruns
        exact halone.counted r hr
      · cases he

/-- A prompt whose second step fails, for two browsers. -/
def clicking : Pipeline where
  config := { name := "demo", baseUrl := "http://a" }
  browsers := ["chromium", "firefox"]
  files := .ofEntries [("p.txt", .file (.text "1. Wait 5 ms\n2. Click Go\n3. Wait 6 ms"))]
  now := ⟨2024, 1, 2, 3, 4, 5⟩

/-- Of two browsers the second cannot be launched. -/
def halfLaunched : Stage :=
  { sessions := [("firefox", { launchFault := some (.browser "no display") })] }

/-- On an empty page the first browser fails at the second of three actions, and the second has no
steps. -/
theorem report_tallies_clicking :
    ∃ states, ((clicking.runAll ["p.txt"]).play Stage.host halfLaunched).value.1 = .ok states ∧
      (clicking.report states).Tallies states ∧
      (clicking.report states).entries.map (fun e =>
        (e.actions, e.run.count StepResult.passed, e.failures.length)) =
        [(3, 1, 1), (3, 0, 0)] := by
  have hnumbers :
    ((clicking.runAll ["p.txt"]).play Stage.host halfLaunched).value.1.toOption.map (fun states =>
      (clicking.report states).entries.map fun e =>
        (e.actions, e.run.count StepResult.passed, e.failures.length)) =
      some [(3, 1, 1), (3, 0, 0)] := by
    decide +kernel
  obtain ⟨hplayed, -⟩ := report_tallies clicking
  have hplays := plays_self Stage.host (clicking.runAll ["p.txt"]) halfLaunched
  cases hends : ((clicking.runAll ["p.txt"]).play Stage.host halfLaunched).value.1 with
  | error e =>
    rw [hends] at hnumbers
    cases hnumbers
  | ok states =>
    rw [hends] at hnumbers hplays
    exact ⟨states, rfl, hplayed Stage.host ["p.txt"] halfLaunched _ _ _ hplays,
      Option.some.inj hnumbers⟩

end Pipeline

end PlainSteps
