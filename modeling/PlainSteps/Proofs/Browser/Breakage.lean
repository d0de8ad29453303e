import PlainSteps.Proofs.Browser.FailFast
import PlainSteps.Browser.Page

/-! # What breaks a run

Whatever goes wrong while an action is performed ends in its result. The picture of a failed action
is taken afterwards, and that alone may break the run: when the directory for pictures cannot be
made, or when the picture fails by something that is no error of the browser. `BreaksAt` says so for
one action and `Breaks` for a run, with one case for each way the next action can go; both are
exact, so a run without such a picture always gives all its results.
-/

namespace PlainSteps

open Script

variable {σ : Type} {h : Host σ}

namespace Execution

/-! ### The picture -/

/-- The picture of an action fails with a fault that is not kept back. -/
inductive PictureBreaks (h : Host σ) (directory : Text) (n : Int) (a : Action) (st : σ)
    (f : Fault) :
    σ → List Request → Prop where
  | directory {st' : σ} (refused : h.answer (.makeDirectory directory) st = (.error f, st')) :
      PictureBreaks h directory n a st f st' [.makeDirectory directory]
  | screenshot {st₁ st' : σ} (made : h.answer (.makeDirectory directory) st = (.ok (), st₁))
      (refused : h.answer (.screenshot (Path.join directory (pictureName n a))) st₁ =
        (.error f, st'))
      (foreign : f.isBrowser = false) :
      PictureBreaks h directory n a st f st'
        [.makeDirectory directory, .screenshot (Path.join directory (pictureName n a))]

variable {s : Setting} {a : Action} {n : Int} {st st' : σ} {f : Fault} {calls : List Request}

theorem takePicture_error_iff {directory : Text} :
    (takePicture directory n a).run.Plays h st (.error f) st' calls ↔
      PictureBreaks h directory n a st f st' calls := by
  unfold takePicture
  rw [plays_run_bind_iff]
  constructor
  · rintro (⟨e, hmake, he⟩ | ⟨_, st₁, before, after, hmake, hshoot, rfl⟩)
    · obtain ⟨hrefused, rfl⟩ := plays_request_iff.mp hmake
      cases he
      exact .directory hrefused
    · obtain ⟨hmade, rfl⟩ := plays_request_iff.mp hmake
      dsimp only at hshoot
      rw [run_lift_bind] at hshoot
      obtain ⟨answer, st₂, shot, told, hask, htell, rfl⟩ := plays_bind_iff.mp hshoot
      obtain ⟨hshot, rfl⟩ := plays_request_iff.mp hask
      cases answer with
      | ok u =>
        obtain ⟨_, -, hr⟩ := plays_run_lift_iff.mp htell
        cases hr
      | error e =>
        dsimp only at htell
        split at htell
        · obtain ⟨_, -, hr⟩ := plays_run_lift_iff.mp htell
          cases hr
        · rename_i hforeign
          obtain ⟨hr, rfl, rfl⟩ := plays_pure_iff.mp htell
          cases hr
          exact .screenshot hmade hshot (by simpa using hforeign)
  · rintro (hrefused | ⟨hmade, hrefused, hforeign⟩)
    · exact .inl ⟨f, plays_request_iff.mpr ⟨hrefused, rfl⟩, rfl⟩
    · refine .inr ⟨(), _, [_], [_], plays_request_iff.mpr ⟨hmade, rfl⟩, ?_, rfl⟩
      dsimp only
      rw [run_lift_bind]
      refine plays_bind_iff.mpr ⟨.error f, st', [_], [],
        plays_request_iff.mpr ⟨hrefused, rfl⟩, ?_, rfl⟩
      dsimp only
      rw [if_neg (by simp [hforeign])]
      exact plays_pure_iff.mpr ⟨rfl, rfl, rfl⟩

/-! ### One action -/

/-- An action failed and then its picture broke the run. -/
def BreaksAt (h : Host σ) (s : Setting) (n : Int) (a : Action) (st : σ) (f : Fault) (st' : σ)
    (calls : List Request) : Prop :=
  ∃ e directory st₁ own picture, (perform s.config a).run.Plays h st (.error e) st₁ own ∧
    s.pictures = some directory ∧ PictureBreaks h directory n a st₁ f st' picture ∧
    calls = own ++ picture

theorem execute_error_iff :
    (execute s a n).run.Plays h st (.error f) st' calls ↔ BreaksAt h s n a st f st' calls := by
  unfold execute
  rw [run_lift_bind, plays_now_bind_iff, run_lift_bind, plays_bind_iff]
  constructor
  · rintro ⟨outcome, st₁, own, later, hperform, hlater, rfl⟩
    rw [run_lift_bind, plays_now_bind_iff] at hlater
    cases outcome with
    | ok details =>
      obtain ⟨hr, -, -⟩ := plays_run_pure_iff.mp hlater
      cases hr
    | error e =>
      dsimp only at hlater
      split at hlater
      · rename_i directory hdirectory
        rcases plays_run_bind_iff.mp hlater with ⟨_, htake, hr⟩ | ⟨_, _, _, _, -, hlast, -⟩
        · cases hr
          exact ⟨e, directory, st₁, own, later, hperform, hdirectory,
            takePicture_error_iff.mp htake, rfl⟩
        · obtain ⟨hr, -, -⟩ := plays_run_pure_iff.mp hlast
          cases hr
      · obtain ⟨hr, -, -⟩ := plays_run_pure_iff.mp hlater
        cases hr
  · rintro ⟨e, directory, st₁, own, picture, hperform, hdirectory, hbreaks, rfl⟩
    refine ⟨.error e, st₁, own, picture, hperform, ?_, rfl⟩
    rw [run_lift_bind, plays_now_bind_iff]
    dsimp only
    rw [hdirectory]
    exact plays_run_bind_iff.mpr (.inl ⟨f, takePicture_error_iff.mpr hbreaks, rfl⟩)

theorem execute_status {r : StepResult} (hp : (execute s a n).run.Plays h st (.ok r) st' calls) :
    r.status = StepResult.passed ∨ r.status = StepResult.failed := by
  rcases execute_plays hp with ⟨_, _, -, rfl⟩ | ⟨_, _, _, _, _, -, -, -, rfl⟩
  · exact .inl rfl
  · exact .inr rfl

/-! ### A run -/

/-- The course of a run that a picture breaks: the actions before the failed one passed. -/
inductive Breaks (h : Host σ) (s : Setting) :
    Int → List Action → σ → Fault → σ → List Request → Prop where
  | here {n : Int} {a : Action} {rest : List Action} {st st' : σ} {f : Fault} {calls : List Request}
      (breaks : BreaksAt h s n a st f st' calls) : Breaks h s n (a :: rest) st f st' calls
  | later {n : Int} {a : Action} {rest : List Action} {st st₁ st' : σ} {f : Fault}
      {own calls : List Request}
      {details : Text} (acts : (perform s.config a).run.Plays h st (.ok details) st₁ own)
      (next : Breaks h s (n + 1) rest st₁ f st' calls) :
      Breaks h s n (a :: rest) st f st' (own ++ calls)

/-- An action that is performed has a result that passed. -/
theorem execute_of_perform_ok {details : Text}
    (hp : (perform s.config a).run.Plays h st (.ok details) st' calls) :
    (execute s a n).run.Plays h st
      (.ok (.pass n a details (h.time st' - h.time st))) st' calls := by
  unfold execute
  rw [run_lift_bind, plays_now_bind_iff, run_lift_bind]
  refine plays_bind_iff.mpr ⟨.ok details, st', calls, [], hp, ?_, (List.append_nil calls).symm⟩
  rw [run_lift_bind, plays_now_bind_iff]
  exact plays_run_pure_iff.mpr ⟨rfl, rfl, rfl⟩

theorem runFrom_error_iff {total : Nat} {actions : List Action} :
    (runFrom s total n actions).run.Plays h st (.error f) st' calls ↔
    Breaks h s n actions st f st' calls := by
  induction actions generalizing n st calls with
  | nil =>
    constructor
    · intro hp
      cases (plays_run_pure_iff.mp hp).1
    · intro hb
      cases hb
  | cons a rest ih =>
    unfold runFrom
    rw [run_lift_bind, plays_tell_bind_iff, plays_run_bind_iff]
    constructor
    · rintro (⟨e, hexec, he⟩ | ⟨r, st₁, own, later, hexec, hlater, rfl⟩)
      · cases he
        exact .here (execute_error_iff.mp hexec)
      · rcases execute_plays hexec with ⟨details, duration, hperform, rfl⟩ |
          ⟨_, _, _, _, _, -, -, -, rfl⟩
        · rw [if_neg (by simpa using StepResult.passed_ne_failed)] at hlater
          rcases plays_run_bind_iff.mp hlater with ⟨_, hrest, hr⟩ | ⟨_, _, _, _, -, hlast, -⟩
          · cases hr
            exact .later hperform (ih.mp hrest)
          · cases (plays_run_pure_iff.mp hlast).1
        · -- behind a failure there are only results
          rw [if_pos (by simp), run_lift_bind, plays_tell_bind_iff] at hlater
          cases (plays_run_pure_iff.mp hlater).1
    · rintro (hbreaks | ⟨hperform, hnext⟩)
      · exact .inl ⟨f, execute_error_iff.mpr hbreaks, rfl⟩
      · refine .inr ⟨_, _, _, _, execute_of_perform_ok hperform, ?_, rfl⟩
        rw [if_neg (by simpa using StepResult.passed_ne_failed)]
        exact plays_run_bind_iff.mpr (.inl ⟨f, ih.mpr hnext, rfl⟩)

/-- **Only a picture breaks a run.** For every behaviour of the page, every action and every
setting: running an action gives a result that passed or failed, unless the action failed and its
picture breaks, and then it ends with the fault of the picture; running a sequence gives one result
for each action, unless the picture of its first failed action breaks. -/
theorem returns_unless_picture_breaks (h : Host σ) (s : Setting) :
    (∀ (a : Action) (n : Int) (st : σ),
      ((∃ r st' calls, (execute s a n).run.Plays h st (.ok r) st' calls ∧
          (r.status = StepResult.passed ∨ r.status = StepResult.failed)) ↔
        ¬ ∃ f st' calls, BreaksAt h s n a st f st' calls) ∧
      ∀ f st' calls, (execute s a n).run.Plays h st (.error f) st' calls ↔
        BreaksAt h s n a st f st' calls) ∧
    ∀ (seq : Sequence) (st : σ),
      ((∃ results st' calls, (runSequence s seq).run.Plays h st (.ok results) st' calls ∧
          FailFast seq.actions results) ↔
        ¬ ∃ f st' calls, Breaks h s 1 seq.actions st f st' calls) ∧
      ∀ f st' calls, (runSequence s seq).run.Plays h st (.error f) st' calls ↔
        Breaks h s 1 seq.actions st f st' calls := by
  refine ⟨fun a n st => ⟨?_, fun f st' calls => execute_error_iff⟩,
    fun seq st => ⟨?_, fun f st' calls => runFrom_error_iff⟩⟩
  · simp only [← execute_error_iff, ← plays_ok_iff_not_error]
    constructor
    · rintro ⟨r, st', calls, hp, -⟩
      exact ⟨r, st', calls, hp⟩
    · rintro ⟨r, st', calls, hp⟩
      exact ⟨r, st', calls, hp, execute_status hp⟩
  · have herror : ∀ f st' calls, Breaks h s 1 seq.actions st f st' calls ↔
        (runSequence s seq).run.Plays h st (.error f) st' calls :=
          fun f st' calls => runFrom_error_iff.symm
    simp only [herror, ← plays_ok_iff_not_error]
    constructor
    · rintro ⟨results, st', calls, hp, -⟩
      exact ⟨results, st', calls, hp⟩
    · rintro ⟨results, st', calls, hp⟩
      exact ⟨results, st', calls, hp, (runFrom_runs hp).failFast⟩

/-- A page without elements whose picture fails by something else than the browser. -/
def unpictured : Stage := { page := { faults := [("screenshot", .other "boom")] } }

/-- There a click that finds nothing ends without a result. -/
theorem execute_unpictured :
    ∃ st' calls, (execute ⟨{ name := "demo", baseUrl := "http://app" }, some "shots"⟩
      (Action.click "button" "Click") 1).run.Plays Stage.host unpictured (.error
        (.other "boom")) st' calls :=
  ⟨_, _, rfl, rfl⟩

end Execution

end PlainSteps
