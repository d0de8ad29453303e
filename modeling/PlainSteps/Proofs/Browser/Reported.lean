import PlainSteps.Proofs.Validation.Agreement

/-! # Whether steps that ran are reported

A session runs its steps between opening its page and closing its browser, and an error of the
browser in any of these places leaves it with a run that has no steps. Of the steps themselves none
can do that, and a picture cannot either as long as directories are not made by the browser. So
there are two kinds of sessions without steps: those in which no page was entered, and those that
ran all they had to run and then could not close their browser. The results of the latter are lost,
and the verdict on them is that of a session that failed before any step (`steps_reported`).
-/

namespace PlainSteps

open Script Execution

variable {σ : Type} {h : Host σ}

/-- Making a directory is no call of the browser: its faults are not those of a browser. -/
def Host.FilesApart (h : Host σ) : Prop :=
  ∀ (path : Text) (f : Fault) (st st' : σ), h.answer (.makeDirectory path) st = (.error f, st') →
    f.isBrowser = false

theorem Stage.host_filesApart : Stage.host.FilesApart := by
  intro path f st st' hanswer
  change Stage.answer (.makeDirectory path) st = (.error f, st') at hanswer
  simp only [Stage.answer] at hanswer
  split at hanswer
  · cases hanswer
  · cases hanswer
    rfl

/-- Then no picture breaks a run like a browser does. -/
theorem Execution.Breaks.foreign {s : Execution.Setting} {n : Int} {actions : List Action}
    {st st' : σ} {f : Fault} {calls : List Request} (hfiles : h.FilesApart)
    (hb : Breaks h s n actions st f st' calls) :
    f.isBrowser = false := by
  induction hb with
  | here breaks =>
    obtain ⟨_, _, _, _, _, -, -, hpicture, -⟩ := breaks
    cases hpicture with
    | directory refused => exact hfiles _ _ _ _ refused
    | screenshot _ _ foreign => exact foreign
  | later _ _ ih => exact ih

namespace Session

variable {s : Setting} {seq : Sequence} {prompt : Prompt} {browser : Text} {st st' : σ}
  {calls : List Request}

/-- How the steps of a session end: without a page, or as those of the sequence and the closing
behind them do. -/
theorem steps_plays_cases {outcome : Except Fault (List StepResult)}
    (hp : (steps s seq browser).run.Plays h st outcome st' calls) :
    (∃ f, outcome = .error f ∧
      (calls = [opening s browser] ∨ calls = [opening s browser, .newPage, .close])) ∨
    ∃ ended st₁ st₂ st₃ own, h.answer (opening s browser) st = (.ok (), st₁) ∧
      h.answer .newPage st₁ = (.ok (), st₂) ∧
      (runSequence (execution s browser) seq).run.Plays h st₂ ended st₃ own ∧
      calls = [opening s browser, .newPage] ++ own ++ [.close] ∧
      (h.answer .close st₃ = (.ok (), st') ∧ outcome = ended ∨
        ∃ f, h.answer .close st₃ = (.error f, st') ∧ outcome = .error f) := by
  rw [steps_eq, plays_request_bind_iff] at hp
  rcases hp with ⟨f, -, rfl, rfl⟩ | ⟨⟨⟩, st₁, later, hlaunched, hinside, rfl⟩
  · exact .inl ⟨f, rfl, .inl rfl⟩
  · obtain ⟨ended, st₃, visited, hvisit, rfl, hclose⟩ := inside_plays_iff.mp hinside
    unfold visit at hvisit
    rcases plays_request_bind_iff.mp hvisit with ⟨f, -, rfl, rfl⟩ |
      ⟨⟨⟩, st₂, own, hentered, hran, rfl⟩
    · -- without a page there is a fault, that of the page or that of closing
      obtain ⟨e, he⟩ : ∃ e, outcome = .error e := by
        rcases hclose with ⟨e, -, he⟩ | ⟨-, he⟩
        · exact ⟨e, he⟩
        · exact ⟨f, he⟩
      exact .inl ⟨e, he, .inr rfl⟩
    · exact .inr ⟨ended, st₁, st₂, st₃, own, hlaunched, hentered, hran, rfl, hclose.symm⟩

/-- **What becomes of the results of a session.** Take a host whose browser does not make
directories, and a session that ends with a run. Either the run has an error of the browser and no
steps, and nothing was asked for but to open the browser and a page and to close it. Or the page was
entered and the sequence was run on it: then the run has the results of the sequence if the browser
could be closed, and if not it has no steps, the error is that of closing, and unless that has no
message the verdict is that of a session that failed before any step. -/
theorem steps_reported {r : Run} (hfiles : h.FilesApart)
    (hp : (run s seq prompt browser).Plays h st (.ok r) st' calls) :
    ((calls = [opening s browser] ∨ calls = [opening s browser, .newPage, .close]) ∧
      r.steps = [] ∧ r.success = false ∧ ∃ f : Fault, f.isBrowser = true ∧
      r.error = some f.message) ∨
    ∃ outcome st₁ st₂ st₃ own,
      h.answer (opening s browser) st = (.ok (), st₁) ∧ h.answer .newPage st₁ = (.ok (), st₂) ∧
      (runSequence (execution s browser) seq).run.Plays h st₂ outcome st₃ own ∧
      calls = [opening s browser, .newPage] ++ own ++ [.close] ∧
      (h.answer .close st₃ = (.ok (), st') ∧ outcome = .ok r.steps ∨
        ∃ f, h.answer .close st₃ = (.error f, st') ∧ f.isBrowser = true ∧
          r.steps = [] ∧ r.success = false ∧ r.error = some f.message ∧
          (f.message ≠ [] → Validation.validateRun r =
            [Validation.sessionVerdict browser f.message])) := by
  rcases run_plays hp with ⟨f, duration, hsteps, hbrowser, rfl⟩ | ⟨results, duration, hsteps, rfl⟩
  · rcases steps_plays_cases hsteps with ⟨_, -, hcalls⟩ |
      ⟨outcome, st₁, st₂, st₃, own, hlaunched, hentered, hran, hcalls, hclose⟩
    · exact .inl ⟨hcalls, rfl, rfl, f, hbrowser, rfl⟩
    · refine .inr ⟨outcome, st₁, st₂, st₃, own, hlaunched, hentered, hran, hcalls, ?_⟩
      rcases hclose with ⟨-, rfl⟩ | ⟨_, hrefused, hf⟩
      · -- no fault of the browser comes out of the sequence
        exact absurd hbrowser (Bool.eq_false_iff.mp ((runFrom_error_iff.mp hran).foreign hfiles))
      · cases hf
        exact .inr ⟨f, hrefused, hbrowser, rfl, rfl, rfl, Validation.validateRun_of_error rfl rfl⟩
  · rcases steps_plays_cases hsteps with ⟨_, hno, -⟩ |
      ⟨outcome, st₁, st₂, st₃, own, hlaunched, hentered, hran, hcalls, hclose⟩
    · cases hno
    · refine .inr ⟨outcome, st₁, st₂, st₃, own, hlaunched, hentered, hran, hcalls, ?_⟩
      rcases hclose with ⟨hclosed, rfl⟩ | ⟨_, -, hno⟩
      · exact .inl ⟨hclosed, rfl⟩
      · cases hno

/-- A session on an empty page has the results of its sequence, up to the click that finds
nothing. -/
theorem steps_reported_clicking :
    Stage.host.FilesApart ∧ ∃ (r : Run) (st : Stage) (calls : List Request),
      (run pictured clickBetweenPauses {} "chromium").Plays Stage.host {} (.ok r) st calls ∧
      Request.pause 5 ∈ calls ∧ r.steps.map (·.status) =
      [StepResult.passed, StepResult.failed, StepResult.skipped] ∧
      ∃ st₂ st₃ own,
        (runSequence (execution pictured "chromium") clickBetweenPauses).run.Plays Stage.host st₂
        (.ok r.steps) st₃ own := by
  refine ⟨Stage.host_filesApart, _, _, _, ⟨rfl, rfl⟩, .tail _ (.tail _ (.head _)), rfl, ?_⟩
  rcases steps_reported Stage.host_filesApart
      (show (run pictured clickBetweenPauses {} "chromium").Plays Stage.host {}
        (.ok _) _ _ from ⟨rfl, rfl⟩) with
    ⟨-, hnone, -⟩ | ⟨_, _, st₂, st₃, own, -, -, hran, -, ⟨-, rfl⟩ | ⟨_, hrefused, -⟩⟩
  · exact absurd hnone (List.cons_ne_nil _ _)
  · exact ⟨st₂, st₃, own, hran⟩
  · cases hrefused

/-- A host whose browsers are gone when they are to be closed. -/
def unclosed : Host Stage where
  time := Stage.clock
  answer q s :=
    match q with
    | .close => (.error (.browser "Target closed"), s.called [.str "close".toList])
    | q => Stage.answer q s

/-- There a pause is made and passes, and the session has no step and the verdict of one that failed
before any. -/
theorem steps_unclosed :
    unclosed.FilesApart ∧ ∃ (r : Run) (st : Stage) (calls : List Request),
      (run pictured ⟨[Action.wait 5 "Wait"]⟩ {} "chromium").Plays unclosed {} (.ok r) st calls ∧
      Request.pause 5 ∈ calls ∧ r.steps = [] ∧
      Validation.validateRun r = [Validation.sessionVerdict "chromium" "Target closed"] :=
  ⟨Stage.host_filesApart, _, _, _, ⟨rfl, rfl⟩, .tail _ (.tail _ (.head _)), rfl, rfl⟩

end Session

end PlainSteps
