import PlainSteps.Proofs.Browser.Breakage
import PlainSteps.Proofs.Browser.Targets
import PlainSteps.Proofs.Compilation.Templates
import PlainSteps.Proofs.Facts.Duration

/-! # How long a wait lasts

A step that waits becomes one action, which names its milliseconds twice: as the time to wait and in
its description. Running such an action makes one request to pause, whatever becomes of it, and the
result of one that passed names the milliseconds again. The pause that is asked for is as long as
all of these say, unless they say that there is none: a wait of no milliseconds is taken for an
action that names no time, and pauses for a second (`pauses_as_named`).
-/

namespace PlainSteps

open Script

variable {σ : Type} {h : Host σ}

namespace Execution

variable {s : Setting} {n ms : Int} {description : Text} {st st' : σ} {calls : List Request}

theorem pauseOf_wait (ms : Int) (description : Text) :
    pauseOf (.wait ms description) = if ms = 0 then 1000 else ms := by
  simp [pauseOf, defaultPause, Action.wait]

/-- A wait is one request to pause, and passes if its answer is no fault. -/
theorem perform_wait_plays_iff {config : Application} {r : Except StepError Text} :
    (perform config (.wait ms description)).run.Plays h st r st' calls ↔
      ∃ answer, h.answer (.pause (if ms = 0 then 1000 else ms)) st = (answer, st') ∧
        r = (answer.mapError .fault).map (fun _ =>
          "Wait completed: ".toList ++ Text.ofInt ms ++ "ms") ∧
        calls = [.pause (if ms = 0 then 1000 else ms)] := by
  rw [← pauseOf_wait ms description]
  exact Acting.request_then_plays_iff fun _ _ => plays_run_pure_iff

/-- Whatever becomes of a wait, it asks for its pause first; only the picture of a failed one may
come behind. -/
theorem execute_wait_calls {r : Except Fault StepResult}
    (hp : (execute s (.wait ms description) n).run.Plays h st r st' calls) :
    ∃ picture, picture <+: pictureCalls s n (.wait ms description) ∧
      calls = .pause (if ms = 0 then 1000 else ms) :: picture := by
  cases r with
  | ok result =>
    rcases execute_plays hp with ⟨details, duration, hperform, -⟩ |
      ⟨e, duration, st₁, own, picture, hperform, hlooks, rfl, -⟩
    · obtain ⟨answer, -, -, rfl⟩ := perform_wait_plays_iff.mp hperform
      exact ⟨[], List.nil_prefix, rfl⟩
    · obtain ⟨answer, -, -, rfl⟩ := perform_wait_plays_iff.mp hperform
      exact ⟨picture, hlooks, rfl⟩
  | error f =>
    obtain ⟨e, directory, st₁, own, picture, hperform, hpictures, hbreaks, rfl⟩ :=
      execute_error_iff.mp hp
    obtain ⟨answer, -, -, rfl⟩ := perform_wait_plays_iff.mp hperform
    refine ⟨picture, ?_, rfl⟩
    rw [pictureCalls, (Option.filter_eq_some_iff.mp hpictures).1]
    exact takePicture_plays (takePicture_error_iff.mpr hbreaks)

/-- A wait whose pause is over passes, and says how long it was. -/
theorem execute_wait_passes {u : Unit}
    (hanswer : h.answer (.pause (if ms = 0 then 1000 else ms)) st = (.ok u, st')) :
    (execute s (.wait ms description) n).run.Plays h st
      (.ok (.pass n (.wait ms description) ("Wait completed: ".toList ++ Text.ofInt ms ++ "ms")
        (h.time st' - h.time st)))
      st' [.pause (if ms = 0 then 1000 else ms)] :=
  execute_of_perform_ok (perform_wait_plays_iff.mpr ⟨_, hanswer, rfl, rfl⟩)

/-- **A wait pauses for as long as it says, except one that says no time at all.** A step that waits
compiles to one action, whose description names its milliseconds. Running an action that waits for
some milliseconds asks for a pause of so many, or of a thousand where there are none, and for
nothing else but the picture of a failed action. Once the pause is over the action passes, and its
details name the milliseconds, none included. -/
theorem pauses_as_named (c : Compiler) (h : Host σ) (s : Setting) (n : Int) (st : σ) :
    (∀ (number depth : Int) (text : Text) (actions : List Action),
      Rule.intentOf (Text.trim text) = .waitAction →
      (c.generator.generate number depth text).result = .ok actions →
        ∃ ms : Nat, Facts.wait (Text.trim text) = .ok (ms : Int) ∧
          actions =
          [Action.wait ms (Generator.step number ("Wait ".toList ++ Text.ofInt ms ++ "ms"))]) ∧
    ∀ (ms : Int) (description : Text) (r : Except Fault StepResult) (st' : σ)
      (calls : List Request), (execute s (.wait ms description) n).run.Plays h st r st' calls →
        let pause := Request.pause (if ms = 0 then 1000 else ms)
        (∃ picture, picture <+: pictureCalls s n (.wait ms description) ∧
          calls = pause :: picture) ∧
        ∀ st₁, h.answer pause st = (.ok (), st₁) → st' = st₁ ∧ calls = [pause] ∧
          r =
            .ok (.pass n (.wait ms description) ("Wait completed: ".toList ++ Text.ofInt ms ++ "ms")
            (h.time st₁ - h.time st)) := by
  refine ⟨?_, ?_⟩
  · intro number depth text actions hintent hactions
    rw [Compiler.generate_wait hintent] at hactions
    cases hwait : Facts.wait (Text.trim text) with
    | error e =>
      rw [hwait] at hactions
      cases hactions
    | ok ms =>
      rw [hwait] at hactions
      obtain ⟨m, rfl, -⟩ := Facts.exists_natCast_of_wait hwait
      exact ⟨m, rfl, (Except.ok.inj hactions).symm⟩
  · intro ms description r st' calls hp
    refine ⟨execute_wait_calls hp, fun st₁ hanswer => ?_⟩
    -- the course is the only one, so it is the one that passes
    obtain ⟨hr, hst, hcalls⟩ := hp.unique (execute_wait_passes hanswer)
    exact ⟨hst, hcalls, hr⟩

/-- Two seconds last two seconds, and the result says so. -/
theorem pauses_as_named_two_seconds :
    (∃ ms : Nat, Facts.wait "Wait 2 s" = .ok (ms : Int) ∧ [Action.wait 2000 "Step 1: Wait 2000ms"] =
      [Action.wait ms (Generator.step 1 ("Wait ".toList ++ Text.ofInt ms ++ "ms"))]) ∧
    ∃ r st' calls,
      (execute ⟨withMenuId, none⟩ (.wait 2000 "Step 1: Wait 2000ms") 1).run.Plays Stage.host
        {} r st' calls ∧
      calls = [.pause 2000] := by
  obtain ⟨hcompiled, hexecuted⟩ := pauses_as_named Compiler.bare Stage.host ⟨withMenuId, none⟩ 1 {}
  refine ⟨hcompiled 1 0 "Wait 2 s" _ rfl rfl, _, _, _, ⟨rfl, rfl⟩, ?_⟩
  exact ((hexecuted 2000 "Step 1: Wait 2000ms" _ _ _ ⟨rfl, rfl⟩).2 _ rfl).2.1

/-- A step that waits for no time pauses for a second, and its result says that it did not. -/
theorem pauses_for_nothing :
    (Compiler.bare.generator.generate 1 0 "Wait 0 ms").result =
      .ok [Action.wait 0 "Step 1: Wait 0ms"] ∧
    ∃ r st', (execute ⟨withMenuId, none⟩ (.wait 0 "Step 1: Wait 0ms") 1).run.Plays Stage.host {}
      (.ok r) st' [.pause 1000] ∧
      r.status = StepResult.passed ∧ r.details = "Wait completed: 0ms" ∧ r.duration = 1000 := by
  have hwait : Facts.wait (Text.trim "Wait 0 ms") = .ok 0 := by decide +kernel
  refine ⟨?_, _, _, ⟨rfl, rfl⟩, rfl, rfl, rfl⟩
  rw [Compiler.generate_wait rfl, hwait]
  rfl

end Execution

end PlainSteps
