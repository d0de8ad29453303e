import PlainSteps.Proofs.Browser.FailFast
import PlainSteps.Browser.Session
import PlainSteps.Browser.Page

/-! # The verdict of a session

A session runs its sequence between opening a page and closing the browser. When it ends with steps,
it succeeded exactly when none of them failed, and otherwise its error names the one that did.
Together with the course of a run this is the main statement here: however the browser answers, at
whatever call, the results, the requests and the verdict tell the same story.
-/

namespace PlainSteps

open Script Execution

variable {σ : Type} {h : Host σ}

namespace Session

variable {s : Setting} {seq : Sequence} {browser : Text} {st st' : σ} {calls : List Request}

/-- What a session runs under. -/
def execution (s : Setting) (browser : Text) : Execution.Setting :=
  ⟨s.config, pictureDirectory s browser⟩

/-- The request that opens a session. -/
def opening (s : Setting) (browser : Text) : Request :=
  .launch (engineOf browser).1 (!s.headed) (engineOf browser).2

/-- A session whose steps are known has run its sequence between opening its page and closing. -/
theorem steps_plays {results : List StepResult}
    (hp : (steps s seq browser).run.Plays h st (.ok results) st' calls) :
    ∃ st₁ own, Runs h (execution s browser) 1 seq.actions st₁ results own ∧
      calls = [opening s browser, .newPage] ++ own ++ [.close] := by
  unfold steps at hp
  dsimp only at hp
  obtain ⟨_, st₁, launch, later, hlaunch, hp₁, rfl⟩ := plays_run_bind_ok_iff.mp hp
  obtain ⟨-, rfl⟩ := plays_request_iff.mp hlaunch
  rw [run_lift_bind] at hp₁
  obtain ⟨outcome, st₂, inside, closing, hinside, hp₂, rfl⟩ := plays_bind_iff.mp hp₁
  -- the browser is closed whatever the outcome is, and the outcome comes out behind that
  obtain ⟨_, st₃, close, last, hclose, hlast, rfl⟩ := plays_run_bind_ok_iff.mp hp₂
  obtain ⟨-, rfl⟩ := plays_request_iff.mp hclose
  obtain ⟨rfl, rfl, rfl⟩ := plays_pure_iff.mp hlast
  obtain ⟨_, st₄, page, own, hpage, hown, rfl⟩ := plays_run_bind_ok_iff.mp hinside
  obtain ⟨-, rfl⟩ := plays_request_iff.mp hpage
  exact ⟨st₄, own, runFrom_runs hown, by simp [opening]⟩

/-- A session ends without steps, broken by its browser, or with the verdict on its steps. -/
theorem run_plays {prompt : Prompt} {r : Run}
    (hp : (run s seq prompt browser).Plays h st (.ok r) st' calls) :
    (∃ f duration, (steps s seq browser).run.Plays h st (.error f) st' calls ∧ f.isBrowser = true ∧
        r = broken prompt browser duration f) ∨
      ∃ results duration, (steps s seq browser).run.Plays h st (.ok results) st' calls ∧
        r = finished prompt browser duration results := by
  unfold run at hp
  rw [plays_tell_bind_iff, plays_now_bind_iff] at hp
  obtain ⟨outcome, st₁, own, later, hsteps, hlater, rfl⟩ := plays_bind_iff.mp hp
  cases outcome with
  | error f =>
    dsimp only at hlater
    split at hlater
    · rename_i hbrowser
      rw [plays_tell_bind_iff, plays_now_bind_iff] at hlater
      obtain ⟨hr, rfl, rfl⟩ := plays_pure_iff.mp hlater
      cases hr
      exact .inl ⟨f, _, by rwa [List.append_nil], hbrowser, rfl⟩
    · obtain ⟨hr, -, -⟩ := plays_pure_iff.mp hlater
      cases hr
  | ok results =>
    dsimp only at hlater
    rw [plays_now_bind_iff] at hlater
    split at hlater
    · obtain ⟨hr, -, -⟩ := plays_pure_iff.mp hlater
      cases hr
    · rw [plays_tell_bind_iff] at hlater
      obtain ⟨hr, rfl, rfl⟩ := plays_pure_iff.mp hlater
      cases hr
      exact .inr ⟨results, _, by rwa [List.append_nil], rfl⟩

/-- The verdict on steps: no failure and no error, or the error of the step that failed. -/
theorem finished_verdict {actions : List Action} {prompt : Prompt} {duration : Int}
    {results : List StepResult} (hf : FailFast actions results) :
    ((finished prompt browser duration results).success = true ↔ ∀ x ∈ results,
      x.status ≠ StepResult.failed) ∧
    ((finished prompt browser duration results).success = true →
      (finished prompt browser duration results).error = none) ∧
    ∀ x ∈ results, x.status = StepResult.failed →
      (finished prompt browser duration results).error =
        some ("Step ".toList ++ Text.ofInt x.step ++ " (" ++ x.description ++ "): " ++
          shown x.error) := by
  unfold finished
  dsimp only
  cases hfind : results.find? (·.status == StepResult.failed) with
  | none =>
    have hnone : ∀ x ∈ results, x.status ≠ StepResult.failed := by simpa using hfind
    exact ⟨by simpa using hnone, fun _ => rfl, fun x hx hxf => absurd hxf (hnone x hx)⟩
  | some f =>
    have hmem : f ∈ results := List.mem_of_find?_eq_some hfind
    have hfailed : f.status = StepResult.failed := by simpa using List.find?_some hfind
    refine ⟨by simpa using ⟨f, hmem, hfailed⟩, by simp, ?_⟩
    intro x hx hxf
    rw [hf.failed_unique hx hmem hxf hfailed]
    rfl

end Session

/-- **A run is fail-fast, and its session says so.** For every behaviour of the browser: a run that
gives results gives one for each action, passed before the first failure and skipped after it, and
asks for nothing after the failing action but its picture. A session that ends with a result either
was broken by its browser and has no steps, or has the steps of such a run; then it succeeded
exactly when no step failed, and otherwise its error names the number and the description of the one
that did. -/
theorem failFast_of_plays (h : Host σ) (seq : Sequence) :
    (∀ (s : Execution.Setting) (st st' : σ) (results : List StepResult) (calls : List Request),
      (runSequence s seq).run.Plays h st (.ok results) st' calls →
        FailFast seq.actions results ∧ StopsAtFailure h s 1 seq.actions st results calls) ∧
    ∀ (s : Session.Setting) (prompt : Prompt) (browser : Text) (st st' : σ) (r : Run)
      (calls : List Request), (Session.run s seq prompt browser).Plays h st (.ok r) st' calls →
        (r.steps = [] ∧ r.success = false ∧ ∃ f, f.isBrowser = true ∧ r.error = some f.message ∧
          (Session.steps s seq browser).run.Plays h st (.error f) st' calls) ∨
        ((Session.steps s seq browser).run.Plays h st (.ok r.steps) st' calls ∧
          FailFast seq.actions r.steps ∧
          (∃ st₁ own, StopsAtFailure h (Session.execution s browser) 1 seq.actions st₁ r.steps own ∧
            calls = [Session.opening s browser, .newPage] ++ own ++ [.close]) ∧
          (r.success = true ↔ ∀ x ∈ r.steps, x.status ≠ StepResult.failed) ∧
          (r.success = true → r.error = none) ∧
          ∀ x ∈ r.steps, x.status = StepResult.failed →
            r.error = some ("Step ".toList ++ Text.ofInt x.step ++ " (" ++ x.description ++ "): " ++
              shown x.error)) := by
  refine ⟨?_, ?_⟩
  · intro s st st' results calls hp
    have hr : Runs h s 1 seq.actions st results calls := runFrom_runs hp
    exact ⟨hr.failFast, hr.stopsAtFailure⟩
  · intro s prompt browser st st' r calls hp
    rcases Session.run_plays hp with ⟨f, duration, hsteps, hbrowser, rfl⟩ |
      ⟨results, duration, hsteps, rfl⟩
    · exact .inl ⟨rfl, rfl, f, hbrowser, rfl, hsteps⟩
    · obtain ⟨st₁, own, hr, hcalls⟩ := Session.steps_plays hsteps
      exact .inr ⟨hsteps, hr.failFast, ⟨st₁, own, hr.stopsAtFailure, hcalls⟩,
        Session.finished_verdict hr.failFast⟩

/-- Sessions of an application without elements that keep pictures. -/
def Session.pictured : Session.Setting :=
  ⟨{ name := "demo", baseUrl := "http://app" }, false, some "shots", "run"⟩

/-- A click between two pauses. -/
def clickBetweenPauses : Sequence :=
  ⟨[Action.wait 5 "Wait", Action.click "button" "Click", Action.wait 7 "Wait again"]⟩

/-- On a page without elements the click fails and the pause behind it is skipped, by itself and in
a session. -/
theorem failFast_of_plays_empty_page :
    (∃ (results : List StepResult) (st : Stage) (calls : List Request),
      (runSequence (Session.execution Session.pictured "chromium") clickBetweenPauses).run.Plays
        Stage.host {} (.ok results) st calls ∧ FailFast clickBetweenPauses.actions results) ∧
    ∃ (r : Run) (st : Stage) (calls : List Request),
      (Session.run Session.pictured clickBetweenPauses {} "chromium").Plays Stage.host {}
        (.ok r) st calls ∧
      FailFast clickBetweenPauses.actions r.steps ∧
      r.steps.map (·.status) = [StepResult.passed, StepResult.failed, StepResult.skipped] ∧
      r.error = some "Step 2 (Click): Element not found: \"button\" (tried 1 strategies)" := by
  obtain ⟨hsequence, hsession⟩ := failFast_of_plays Stage.host clickBetweenPauses
  refine ⟨⟨_, _, _, ⟨rfl, rfl⟩,
    (hsequence (Session.execution Session.pictured "chromium") {} _ _ _ ⟨rfl, rfl⟩).1⟩, _, _,
      _, ⟨rfl, rfl⟩, ?_⟩
  rcases hsession Session.pictured {} "chromium" {} _ _ _ ⟨rfl, rfl⟩
    with ⟨hnone, -⟩ | ⟨-, hfast, -, -, -, herror⟩
  · exact absurd hnone (List.cons_ne_nil _ _)
  · exact ⟨hfast, rfl, herror _ (.tail _ (.head _)) rfl⟩

end PlainSteps
