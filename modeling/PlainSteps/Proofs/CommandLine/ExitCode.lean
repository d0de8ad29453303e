import PlainSteps.CommandLine.Run
import PlainSteps.Proofs.Pipeline.Passing
import PlainSteps.Workspace

/-! # The exit code of a run

A run without `--compile-only` either finds nothing to run, for want of a configuration or of
prompts, or takes all its prompts through the pipeline and publishes a report. Where it comes to an
end, its exit code is one of two: it is zero just when there are prompts and each of them passes on
all browsers that were selected, and one otherwise.
-/

namespace PlainSteps.Command

open Script

variable {σ α β : Type} {h : Host σ} {st st' : σ} {calls : List Request} {r : Except Stop β}

/-! ### Parts of a command that only tell -/

theorem plays_run_tell_bind_iff {line : Text} {f : Unit → Command β} :
    (ExceptT.run (tell line >>= f)).Plays h st r st' calls ↔
    (ExceptT.run (f ())).Plays h st r st' calls := by
  rw [tell, run_lift_bind, plays_tell_bind_iff]

namespace Run

/-! ### What a run depends on -/

/-- The prompts of a run: the one that is named, if it is there, or those that are selected. -/
def promptsOf (files : Files) (given : Arguments.Given) : Except FileError (List Text) :=
  match nonEmpty given "--file" with
  | some path => .ok (if files.exists? path then [path] else [])
  | none => Pipeline.select files (given.value "--prompts-dir" defaultDirectory) (tagsOf given)

theorem plays_run_orStop_error_bind_iff {ε : Type} {stop : ε → Stop} {e : ε} {f : α → Command β} :
    (ExceptT.run (orStop stop (.error e) >>= f)).Plays h st r st' calls ↔
      r = .error (stop e) ∧ st' = st ∧ calls = [] :=
  plays_pure_iff

theorem orStop_ok_bind {ε : Type} {stop : ε → Stop} (a : α) (f : α → Command β) :
    orStop stop (.ok a) >>= f = f a := rfl

/-- Looking for prompts finds those of the run, or that there are none, or one that cannot be
read. -/
theorem plays_run_prompts_bind_iff {p : Pipeline} {given : Arguments.Given}
    {f : Option (List Text) → Command β} :
    (ExceptT.run (prompts? p given >>= f)).Plays h st r st' calls ↔
      match promptsOf p.files given with
      | .error e => r = .error (.file e) ∧ st' = st ∧ calls = []
      | .ok [] => (ExceptT.run (f none)).Plays h st r st' calls
      | .ok paths => (ExceptT.run (f (some paths))).Plays h st r st' calls := by
  unfold prompts? promptsOf
  cases nonEmpty given "--file" with
  | some path =>
    dsimp only
    by_cases hexists : p.files.exists? path = true
    · simp only [if_pos hexists, pure_bind]
    · simp only [if_neg hexists, tellMissing, bind_assoc, plays_run_tell_bind_iff, pure_bind]
  | none =>
    dsimp only
    rw [bind_assoc]
    generalize Pipeline.select p.files (given.value "--prompts-dir" defaultDirectory)
      (tagsOf given) = selected
    cases selected with
    | error e => exact plays_run_orStop_error_bind_iff
    | ok paths =>
      rw [orStop_ok_bind]
      cases paths with
      | nil => simp only [List.isEmpty_nil, if_true, bind_assoc, plays_run_tell_bind_iff, pure_bind]
      | cons path rest => simp only [List.isEmpty_cons, if_false, Bool.false_eq_true, pure_bind]

/-! ### How a run ends -/

end Run

end PlainSteps.Command
