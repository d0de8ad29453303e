import Mathlib.Data.List.Nodup
import PlainSteps.Proofs.Pipeline.Tally

/-! # What a report says of a failure

A report shows a verdict with every failed step. It looks for it among all verdicts of the state, by
the browser of the run and the number of the step, and takes the last one it finds. In one run no
number is used twice, so a run finds its own verdicts; but the runs of a browser that was asked for
twice find those of the last of them. A failure has the verdict on its own step just when no later
run of the same browser has a different one to show for that number (`failures_judged`).
-/

namespace PlainSteps

open Script Execution Validation

/-- The verdicts of a state are those on its runs, and no run numbers two of its steps alike. -/
structure State.Judged (t : State) : Prop where
  verdicts : t.verdicts = Validation.verdicts t.runs
  numbered : ∀ r ∈ t.runs, (r.steps.map (·.step)).Nodup

/-- A failed step with a verdict. -/
def Failure.of (x : StepResult) (v : Verdict) : Failure := ⟨x, some v.message, v.fixes⟩

/-- Every failure in an entry has the verdict on its own step. -/
def Entry.Own (e : Entry) : Prop :=
  ∀ f ∈ e.failures, f = .of f.step (validateStep e.run.browser f.step)

instance (e : Entry) : Decidable e.Own :=
  inferInstanceAs (Decidable (∀ f ∈ e.failures, f = .of f.step (validateStep e.run.browser f.step)))

/-! ### Finding a verdict -/

namespace Report

variable {vs ws : List Verdict} {v : Verdict} {r : Run} {n : Int}

/-- Later verdicts come first. -/
theorem verdictOf?_append (vs ws : List Verdict) (r : Run) (n : Int) :
    verdictOf? (vs ++ ws) r n = (verdictOf? ws r n).or (verdictOf? vs r n) := by
  unfold verdictOf?
  rw [List.filter_append, List.getLast?_append]

theorem of_verdictOf? (h : verdictOf? vs r n = some v) :
    v ∈ vs ∧ v.browser = r.browser ∧ v.isValid = false ∧ v.step = n := by
  obtain ⟨hmem, hfound⟩ := List.mem_filter.mp (List.mem_of_getLast? h)
  simpa [and_assoc] using And.intro hmem hfound

theorem verdictOf?_eq_none (h : ∀ v ∈ vs, v.browser = r.browser → v.step ≠ n) :
    verdictOf? vs r n = none := by
  refine Option.eq_none_iff_forall_ne_some.mpr fun v hv => ?_
  obtain ⟨hmem, hbrowser, -, hstep⟩ := of_verdictOf? hv
  exact h v hmem hbrowser hstep

/-- A verdict is found that no later one takes the place of. -/
theorem verdictOf?_cons (hbrowser : v.browser = r.browser) (hinvalid : v.isValid = false)
    (hlater : verdictOf? ws r v.step = none) : verdictOf? (v :: ws) r v.step = some v := by
  have hone : verdictOf? [v] r v.step = some v := by
    unfold verdictOf?
    rw [List.filter_cons_of_pos (by simp [hbrowser, hinvalid])]
    rfl
  rw [show v :: ws = [v] ++ ws from rfl, verdictOf?_append, hlater, hone, Option.none_or]

end Report

/-! ### Verdicts of runs -/

section Runs

variable {r : Run}

theorem browser_of_mem_validateRun {v : Verdict} (hv : v ∈ validateRun r) :
    v.browser = r.browser := by
  unfold validateRun at hv
  split at hv
  · rw [List.mem_singleton.mp hv]
    rfl
  · obtain ⟨x, -, rfl⟩ := List.mem_map.mp hv
    rfl

theorem exists_run_of_mem_verdicts {runs : List Run} {v : Verdict} (hv : v ∈ verdicts runs) :
    ∃ r ∈ runs, v ∈ validateRun r ∧ v.browser = r.browser := by
  obtain ⟨r, hr, hmem⟩ := List.mem_flatMap.mp hv
  exact ⟨r, hr, hmem, browser_of_mem_validateRun hmem⟩

namespace Report

/-- A run that does not number two steps alike finds its own verdict on a step that did not pass. -/
theorem verdictOf?_validateRun (hn : (r.steps.map (·.step)).Nodup) {x : StepResult}
    (hx : x ∈ r.steps) (hstatus : x.status ≠ StepResult.passed) :
    verdictOf? (validateRun r) r x.step = some (validateStep r.browser x) := by
  rw [validateRun_of_steps (List.ne_nil_of_mem hx)]
  obtain ⟨before, after, hsteps⟩ := List.append_of_mem hx
  rw [hsteps, List.map_append, List.map_cons] at hn
  have hnew : x.step ∉ after.map (·.step) := (List.nodup_cons.mp (List.nodup_append.mp hn).2.1).1
  have hafter : verdictOf? (after.map (validateStep r.browser)) r x.step = none := by
    refine verdictOf?_eq_none (List.forall_mem_map.mpr fun y hy _ hsame => hnew ?_)
    exact List.mem_map.mpr ⟨y, hy, hsame⟩
  have hfound :
    verdictOf? (validateStep r.browser x :: after.map (validateStep r.browser)) r x.step =
      some (validateStep r.browser x) :=
        verdictOf?_cons rfl (isValid_validateStep_of_ne hstatus) hafter
  rw [hsteps, List.map_append, List.map_cons, verdictOf?_append, hfound, Option.some_or]

/-- The verdict that is found for a step of a run is the last of later runs, if there is one, or
else its own. -/
theorem verdictOf?_verdicts (before after : List Run) (hn : (r.steps.map (·.step)).Nodup)
    {x : StepResult} (hx : x ∈ r.steps) (hstatus : x.status ≠ StepResult.passed) :
    verdictOf? (verdicts (before ++ r :: after)) r x.step =
      some ((verdictOf? (verdicts after) r x.step).getD (validateStep r.browser x)) := by
  unfold verdicts
  rw [List.flatMap_append, List.flatMap_cons, verdictOf?_append, verdictOf?_append,
    verdictOf?_validateRun hn hx hstatus, Option.or_some, Option.some_or]

theorem verdictOf?_verdicts_eq_none {runs : List Run} (h : r.browser ∉ runs.map (·.browser))
    (n : Int) :
    verdictOf? (verdicts runs) r n = none := by
  refine verdictOf?_eq_none fun v hv hbrowser _ => h ?_
  obtain ⟨r', hr', -, hsame⟩ := exists_run_of_mem_verdicts hv
  exact List.mem_map.mpr ⟨r', hr', hsame.symm.trans hbrowser⟩

/-- The verdict that is shown with a step of a run in front of others. -/
def shown (after : List Run) (r : Run) (x : StepResult) : Verdict :=
  (verdictOf? (verdicts after) r x.step).getD (validateStep r.browser x)

theorem failures_entryOf {t : State} (h : t.Judged) {before after : List Run}
    (hruns : t.runs = before ++ r :: after) :
    (entryOf t r).failures =
      (r.steps.filter (·.status == StepResult.failed)).map fun x => .of x (shown after r x) := by
  have hr : r ∈ t.runs := hruns ▸ List.mem_append_right _ (.head _)
  refine List.map_congr_left fun x hx => ?_
  obtain ⟨hmem, hfailed⟩ := List.mem_filter.mp hx
  have hstatus : x.status ≠ StepResult.passed :=
    beq_iff_eq.mp hfailed ▸ StepResult.passed_ne_failed.symm
  unfold failureOf
  rw [h.verdicts, hruns, verdictOf?_verdicts before after (h.numbered r hr) hmem hstatus]
  rfl

/-- The verdict that is shown is that on the step, or one of a later run of the same browser. -/
theorem shown_cases (after : List Run) (r : Run) (x : StepResult) :
    shown after r x = validateStep r.browser x ∨
      ∃ r' ∈ after, r'.browser = r.browser ∧ shown after r x ∈ validateRun r' ∧
        (shown after r x).isValid = false ∧ (shown after r x).step = x.step := by
  unfold shown
  cases hv : verdictOf? (verdicts after) r x.step with
  | none => exact .inl rfl
  | some v =>
    obtain ⟨hmem, hbrowser, hinvalid, hstep⟩ := of_verdictOf? hv
    obtain ⟨r', hr', hmem', hsame⟩ := exists_run_of_mem_verdicts hmem
    exact .inr ⟨r', hr', hsame.symm.trans hbrowser, hmem', hinvalid, hstep⟩

/-- **Which verdict a report shows with a failure.** Take any states and one among them whose
verdicts are those on its runs. The failures in the entry of a run are its failed steps in order.
With each is shown the last invalid verdict of later runs for the same browser and number, if there
is one, and else the verdict on the step itself. So all verdicts in the entry are those on its own
steps just when those of later runs say the same, and this is so in particular if its browser is not
used again. -/
theorem failures_judged (app : Text) (browsers : List Text) (parallel : Bool) (now : Moment)
    {states : List State} {t : State} (ht : t ∈ states) (h : t.Judged) {before after : List Run}
    (hruns : t.runs = before ++ r :: after) :
    entryOf t r ∈ (ofStates app browsers parallel now states).entries ∧
    (entryOf t r).failures =
      (r.steps.filter (·.status == StepResult.failed)).map (fun x => .of x (shown after r x)) ∧
    (∀ x, shown after r x = validateStep r.browser x ∨
      ∃ r' ∈ after, r'.browser = r.browser ∧ shown after r x ∈ validateRun r' ∧
        (shown after r x).isValid = false ∧ (shown after r x).step = x.step) ∧
    ((entryOf t r).Own ↔ ∀ x ∈ r.steps, x.status = StepResult.failed →
      Failure.of x (shown after r x) = .of x (validateStep r.browser x)) ∧
    (r.browser ∉ after.map (·.browser) → (entryOf t r).Own) := by
  have hfailures := failures_entryOf h hruns
  have hown : (entryOf t r).Own ↔ ∀ x ∈ r.steps, x.status = StepResult.failed →
      Failure.of x (shown after r x) = .of x (validateStep r.browser x) := by
    unfold Entry.Own
    rw [hfailures]
    simp only [List.forall_mem_map, List.mem_filter, beq_iff_eq, and_imp]
    rfl
  have hr : r ∈ t.runs := hruns ▸ List.mem_append_right _ (.head _)
  refine ⟨List.mem_flatMap.mpr ⟨t, ht, List.mem_map.mpr ⟨r, hr, rfl⟩⟩, hfailures,
    shown_cases after r, hown, ?_⟩
  intro hbrowser
  refine hown.mpr fun x _ _ => ?_
  unfold shown
  rw [verdictOf?_verdicts_eq_none hbrowser, Option.getD_none]

/-- A run whose only click found nothing. -/
def missed (browser : Text) : Run :=
  Session.finished {} browser 5 [.fail 1 (.click "menu" "Click") (.notFound "menu" ["css=#menu"]) 5]

/-- A state with the verdicts on its runs. -/
def missedOn (browsers : List Text) : State :=
  { runs := browsers.map missed, verdicts := verdicts (browsers.map missed) }

/-- Of two browsers each has the verdict on its own click. -/
theorem failures_judged_missed :
    (missedOn ["chromium", "firefox"]).Judged ∧
    (entryOf (missedOn ["chromium", "firefox"]) (missed "chromium")).Own ∧
      (entryOf (missedOn ["chromium", "firefox"]) (missed "chromium")).failures.length = 1 := by
  have hjudged : (missedOn ["chromium", "firefox"]).Judged := ⟨rfl, by decide⟩
  obtain ⟨-, hfailures, -, -, hown⟩ :=
    failures_judged "demo" ["chromium", "firefox"] false ⟨2024, 1, 2, 3, 4, 5⟩
    (List.mem_singleton_self (missedOn ["chromium", "firefox"])) hjudged
    (show (missedOn ["chromium", "firefox"]).runs = [] ++ missed "chromium" ::
      [missed "firefox"] from rfl)
  refine ⟨hjudged, hown (by decide), ?_⟩
  rw [hfailures]
  decide

end Report

end Runs

/-! ### States behind the pipeline -/

theorem Execution.FailFast.nodup {actions : List Action} {results : List StepResult}
    (hf : FailFast actions results) :
    (results.map (·.step)).Nodup := by
  have hnumber : ∀ k < (results.map (·.step)).length,
      (results.map (·.step))[k]? = some ((k : Int) + 1) := by
    intro k hk
    have hk' : k < results.length := by rwa [List.length_map] at hk
    rw [List.getElem?_map, List.getElem?_eq_getElem hk', Option.map_some,
      hf.numbered k _ (List.getElem?_eq_getElem hk')]
  refine List.nodup_iff_getElem?_ne_getElem?.mpr fun i j hij hj hsame => ?_
  rw [hnumber i (hij.trans hj), hnumber j hj] at hsame
  have hplace : (i : Int) + 1 = j + 1 := Option.some.inj hsame
  omega

section Playing

variable {σ : Type} {h : Host σ} {st st' : σ} {calls : List Request}

/-- The steps of a session are numbered apart. -/
theorem Session.nodup_of_plays {s : Session.Setting} {seq : Sequence} {prompt : Prompt}
    {browser : Text} {r : Run}
    (hp : (Session.run s seq prompt browser).Plays h st (.ok r) st' calls) :
    (r.steps.map (·.step)).Nodup := by
  rcases Session.run_plays hp with ⟨f, duration, -, -, rfl⟩ | ⟨results, duration, hsteps, rfl⟩
  · exact List.nodup_nil
  · obtain ⟨st₁, own, hruns, -⟩ := Session.steps_plays hsteps
    exact hruns.failFast.nodup

namespace Pipeline

variable {p : Pipeline}

theorem runPrompt_judged {path : Text} {s t : State} (hstart : p.start path = .ok s)
    (hp : (p.runPrompt s).Plays h st t st' calls) : t.Judged := by
  obtain ⟨input, -, rfl⟩ := start_ok_iff.mp hstart
  rcases runPrompt_runs hp with ⟨c, runs, -, hruns, rfl⟩ | ⟨e, -, rfl⟩
  · refine ⟨rfl, fun r hr => ?_⟩
    obtain ⟨_, -, _, _, _, hplays⟩ := Session.exists_plays_of_inTurn hruns hr
    exact Session.nodup_of_plays hplays
  · exact ⟨rfl, List.forall_mem_nil _⟩

/-- The verdicts of all states behind the pipeline are those on their runs. -/
theorem runAll_judged {paths : List Text} {states : List State}
    (hp : (p.runAll paths).Plays h st (.ok states) st' calls) : ∀ t ∈ states, t.Judged := by
  intro t ht
  obtain ⟨_, -, _, _, _, _, hstart, hrun⟩ := exists_runPrompt_of_runFrom hp ht
  exact runPrompt_judged hstart hrun

end Pipeline

end Playing

namespace Pipeline

/-- A greeting, looked for by the same browser twice. -/
def greeting : Pipeline where
  config :=
    { name := "demo", baseUrl := "http://a"
      elements := [("page content", [⟨.selector, "#main", none⟩])] }
  browsers := ["chromium", "chromium"]
  files := .ofEntries [("p.txt", .file (.text "Verify \"Welcome\" is shown"))]
  now := ⟨2024, 1, 2, 3, 4, 5⟩

/-- A page that shows something else, and not at once. -/
def lateHello : Stage :=
  { sessions := [("chromium",
      { elements := [.mk (some "#main") none [] none none "Hello" 3000 false none none []] })] }

/-- What an entry says of its failures, and whether that is the verdict on its own steps. -/
def said (e : Entry) : Bool × List (Option Text) := (decide e.Own, e.failures.map (·.validation))

/-- The first time nothing is found, the second time another text. The report says of both failures
what is to be said of the second. -/
theorem not_own_greeting :
    ∃ states, ((greeting.runAll ["p.txt"]).play Stage.host lateHello).value.1 = .ok states ∧
      (∀ t ∈ states, t.Judged) ∧
      (greeting.report states).entries.map said =
        [(false, [some "Execution error: \"page content\" does not contain \"Welcome\"".toList]),
         (true,
           [some "Execution error: \"page content\" does not contain \"Welcome\"".toList])] := by
  have hsaid :
    ((greeting.runAll ["p.txt"]).play Stage.host lateHello).value.1.toOption.map (fun states =>
      (greeting.report states).entries.map said) =
      some [(false, [some "Execution error: \"page content\" does not contain \"Welcome\"".toList]),
        (true,
          [some "Execution error: \"page content\" does not contain \"Welcome\"".toList])] := by
    decide +kernel
  have hplays := plays_self Stage.host (greeting.runAll ["p.txt"]) lateHello
  cases hends : ((greeting.runAll ["p.txt"]).play Stage.host lateHello).value.1 with
  | error e =>
    rw [hends] at hsaid
    cases hsaid
  | ok states =>
    rw [hends] at hsaid hplays
    exact ⟨states, rfl, runAll_judged hplays, Option.some.inj hsaid⟩

end Pipeline

end PlainSteps
