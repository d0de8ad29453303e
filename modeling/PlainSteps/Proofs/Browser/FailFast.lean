import PlainSteps.Proofs.Browser.Playing
import PlainSteps.Browser.Execution

/-! # A run stops at its first failure

A run that gives results gives one for each action: those before the first failure passed, that one
failed, and the others were skipped. `Runs` is the course of such a run, with one case for each way
the next action can go; a run of the program is such a course (`runFrom_runs`), and everything else
is read off the course by induction: how many results there are and what they say, the order of
their statuses, and which requests the host has seen. Skipped actions make no request, and after the
failing action only the picture of the page is asked for.
-/

namespace PlainSteps

open Script

variable {σ : Type} {h : Host σ}

namespace StepResult

theorem passed_ne_failed : passed ≠ failed := by decide

theorem skipped_ne_failed : skipped ≠ failed := by decide

@[simp] theorem status_pass (n : Int) (a : Action) (details : Text) (duration : Int) :
    (pass n a details duration).status = passed := rfl

@[simp] theorem status_fail (n : Int) (a : Action) (e : StepError) (duration : Int) :
    (fail n a e duration).status = failed := rfl

end StepResult

namespace Execution

/-- The requests for the picture of a failed action. Making a directory is no call of the page. -/
def pictureCalls (s : Setting) (n : Int) (a : Action) : List Request :=
  match s.screenshots with
  | none => []
  | some directory =>
    [.makeDirectory directory, .screenshot (Path.join directory (pictureName n a))]

/-- The course of a run from a state, with the results it gives and the requests it makes. -/
inductive Runs (h : Host σ) (s : Setting) :
    Int → List Action → σ → List StepResult → List Request → Prop where
  | done (n : Int) (st : σ) : Runs h s n [] st [] []
  | pass {n : Int} {a : Action} {rest : List Action} {st st₁ : σ} {own later : List Request}
      {details : Text} {results : List StepResult} (duration : Int)
      (acts : (perform s.config a).run.Plays h st (.ok details) st₁ own)
      (next : Runs h s (n + 1) rest st₁ results later) :
      Runs h s n (a :: rest) st (.pass n a details duration :: results) (own ++ later)
  | fail {n : Int} {a : Action} {rest : List Action} {st st₁ : σ} {own picture : List Request}
      {e : StepError} (duration : Int)
      (acts : (perform s.config a).run.Plays h st (.error e) st₁ own)
      (looks : picture <+: pictureCalls s n a) :
      Runs h s n (a :: rest) st (.fail n a e duration :: skipAll n (n + 1) rest) (own ++ picture)

/-! ### The program follows the course -/

variable {s : Setting} {st st' : σ} {calls : List Request}

theorem takePicture_plays {directory : Text} {n : Int} {a : Action} {r : Except Fault Unit}
    (hp : (takePicture directory n a).run.Plays h st r st' calls) :
    calls <+: [.makeDirectory directory, .screenshot (Path.join directory (pictureName n a))] := by
  unfold takePicture at hp
  rcases plays_run_bind_iff.mp hp with ⟨e, hmake, -⟩ | ⟨_, st₁, before, after, hmake, hshoot, rfl⟩
  · obtain ⟨-, rfl⟩ := plays_request_iff.mp hmake
    exact ⟨[_], rfl⟩
  · obtain ⟨-, rfl⟩ := plays_request_iff.mp hmake
    dsimp only at hshoot
    rw [run_lift_bind] at hshoot
    obtain ⟨answer, st₂, shot, told, hask, htell, rfl⟩ := plays_bind_iff.mp hshoot
    obtain ⟨-, rfl⟩ := plays_request_iff.mp hask
    -- whatever the answer is, all that follows is a line or an error
    have htold : told = [] := by
      cases answer with
      | ok u =>
        obtain ⟨_, ht, -⟩ := plays_run_lift_iff.mp htell
        exact (plays_tell_iff.mp ht).2
      | error f =>
        dsimp only at htell
        split at htell
        · obtain ⟨_, ht, -⟩ := plays_run_lift_iff.mp htell
          exact (plays_tell_iff.mp ht).2
        · exact (plays_pure_iff.mp htell).2.2
    rw [htold]
    exact List.prefix_rfl

/-- What the result of an executed action says, and what the host has been asked for. -/
theorem execute_plays {a : Action} {n : Int} {r : StepResult}
    (hp : (execute s a n).run.Plays h st (.ok r) st' calls) :
    (∃ details duration, (perform s.config a).run.Plays h st (.ok details) st' calls ∧
        r = .pass n a details duration) ∨
      ∃ e duration st₁ own picture, (perform s.config a).run.Plays h st (.error e) st₁ own ∧
        picture <+: pictureCalls s n a ∧ calls = own ++ picture ∧ r = .fail n a e duration := by
  unfold execute at hp
  rw [run_lift_bind, plays_now_bind_iff, run_lift_bind] at hp
  obtain ⟨outcome, st₁, own, later, hperform, hlater, rfl⟩ := plays_bind_iff.mp hp
  rw [run_lift_bind, plays_now_bind_iff] at hlater
  cases outcome with
  | ok details =>
    obtain ⟨hr, rfl, rfl⟩ := plays_run_pure_iff.mp hlater
    cases hr
    exact .inl ⟨details, _, by rwa [List.append_nil], rfl⟩
  | error e =>
    dsimp only at hlater
    -- a picture is asked for only behind a failure, and only if there is a directory for it
    refine .inr ⟨e, h.time st₁ - h.time st, st₁, own, later, hperform, ?_⟩
    split at hlater
    · rename_i directory hdirectory
      obtain ⟨_, st₂, before, after, htake, hlast, rfl⟩ := plays_run_bind_ok_iff.mp hlater
      obtain ⟨hr, rfl, rfl⟩ := plays_run_pure_iff.mp hlast
      cases hr
      rw [List.append_nil, pictureCalls, (Option.filter_eq_some_iff.mp hdirectory).1]
      exact ⟨takePicture_plays htake, rfl, rfl⟩
    · obtain ⟨hr, rfl, rfl⟩ := plays_run_pure_iff.mp hlater
      cases hr
      exact ⟨List.nil_prefix, rfl, rfl⟩

/-- **A run of the program is such a course.** -/
theorem runFrom_runs {total : Nat} {actions : List Action} {n : Int} {results : List StepResult}
    (hp : (runFrom s total n actions).run.Plays h st (.ok results) st' calls) :
    Runs h s n actions st results calls := by
  induction actions generalizing n st results calls with
  | nil =>
    obtain ⟨hr, -, rfl⟩ := plays_run_pure_iff.mp hp
    cases hr
    exact .done n st
  | cons a rest ih =>
    unfold runFrom at hp
    rw [run_lift_bind, plays_tell_bind_iff] at hp
    -- a picture that breaks the run leaves no results
    obtain ⟨r, st₁, own, later, hexec, hlater, rfl⟩ := plays_run_bind_ok_iff.mp hp
    rcases execute_plays hexec with ⟨details, duration, hperform, rfl⟩ |
      ⟨e, duration, st₂, acts, picture, hperform, hpicture, rfl, rfl⟩
    · rw [if_neg (by simpa using StepResult.passed_ne_failed)] at hlater
      obtain ⟨others, st₃, before, after, hrest, hlast, rfl⟩ := plays_run_bind_ok_iff.mp hlater
      obtain ⟨hr, rfl, rfl⟩ := plays_run_pure_iff.mp hlast
      cases hr
      rw [List.append_nil]
      exact .pass duration hperform (ih hrest)
    · rw [if_pos (by simp), run_lift_bind, plays_tell_bind_iff] at hlater
      obtain ⟨hr, -, rfl⟩ := plays_run_pure_iff.mp hlater
      cases hr
      rw [List.append_nil]
      exact .fail duration hperform hpicture

/-! ### What the course shows -/

/-- Actions done one after the other without a failure, with the requests made for them. -/
inductive Performs (h : Host σ) (config : Application) :
    List Action → σ → σ → List Request → Prop where
  | nil (st : σ) : Performs h config [] st st []
  | cons {a : Action} {rest : List Action} {st st₁ st₂ : σ}
      {own later : List Request} {details : Text}
      (acts : (perform config a).run.Plays h st (.ok details) st₁ own)
      (next : Performs h config rest st₁ st₂ later) :
      Performs h config (a :: rest) st st₂ (own ++ later)

/-- One result for each action, in order: those before the first failure passed, that one failed and
says why, and the others were skipped. -/
structure FailFast (actions : List Action) (results : List StepResult) : Prop where
  length : results.length = actions.length
  numbered : ∀ (i : Nat) (r : StepResult), results[i]? = some r → r.step = i + 1
  named : results.map (fun r => (r.action, r.description)) = actions.map fun a =>
    (a.kind.word, a.description)
  statuses : results.map (·.status) = List.replicate actions.length StepResult.passed ∨
    ∃ k < actions.length, results.map (·.status) = List.replicate k StepResult.passed ++
      StepResult.failed :: List.replicate (actions.length - k - 1) StepResult.skipped
  errors : ∀ r ∈ results,
    r.status = StepResult.failed ∧ r.error.isSome ∧ r.errorType.isSome ∨
      r.status ≠ StepResult.failed ∧ r.error = none ∧ r.errorType = none

section Course

variable {n : Int} {actions : List Action} {results : List StepResult}

theorem skipAll_named (failedAt : Int) : ∀ (n : Int) (actions : List Action),
    (skipAll failedAt n actions).map (fun r => (r.action, r.description)) =
      actions.map fun a => (a.kind.word, a.description)
  | _, [] => rfl
  | n, a :: rest =>
    congrArg ((a.kind.word, a.description) :: ·) (skipAll_named failedAt (n + 1) rest)

theorem skipAll_numbered (failedAt : Int) :
    ∀ (n : Int) (actions : List Action) (i : Nat) (r : StepResult),
    (skipAll failedAt n actions)[i]? = some r → r.step = n + i
  | _, [], _, _, hr => by simp [skipAll] at hr
  | n, a :: rest, 0, r, hr => by
    cases hr
    simp [StepResult.skip]
  | n, a :: rest, i + 1, r, hr => by
    have := skipAll_numbered failedAt (n + 1) rest i r hr
    omega

theorem skipAll_statuses (failedAt : Int) : ∀ (n : Int) (actions : List Action),
    (skipAll failedAt n actions).map (·.status) = List.replicate actions.length StepResult.skipped
  | _, [] => rfl
  | n, _ :: rest => congrArg (StepResult.skipped :: ·) (skipAll_statuses failedAt (n + 1) rest)

theorem skipAll_errors (failedAt : Int) : ∀ (n : Int) (actions : List Action),
    ∀ r ∈ skipAll failedAt n actions, r.status ≠ StepResult.failed ∧ r.error = none ∧
    r.errorType = none
  | _, [], r, hr => by simp [skipAll] at hr
  | n, a :: rest, r, hr => by
    rcases List.mem_cons.mp hr with rfl | hr
    · exact ⟨StepResult.skipped_ne_failed, rfl, rfl⟩
    · exact skipAll_errors failedAt (n + 1) rest r hr

theorem Runs.named (hr : Runs h s n actions st results calls) :
    results.map (fun r => (r.action, r.description)) = actions.map fun a =>
      (a.kind.word, a.description) := by
  induction hr with
  | done => rfl
  | @pass n a rest _ _ _ _ _ _ _ _ _ ih => exact congrArg ((a.kind.word, a.description) :: ·) ih
  | @fail n a rest =>
    exact congrArg ((a.kind.word, a.description) :: ·) (skipAll_named n (n + 1) rest)

theorem Runs.numbered (hr : Runs h s n actions st results calls) :
    ∀ (i : Nat) (r : StepResult), results[i]? = some r → r.step = n + i := by
  induction hr with
  | done => intro i r hi; simp at hi
  | pass _ _ _ ih =>
    intro i r hi
    cases i with
    | zero => cases hi; simp [StepResult.pass]
    | succ i =>
      have := ih i r hi
      omega
  | @fail n a rest =>
    intro i r hi
    cases i with
    | zero => cases hi; simp [StepResult.fail]
    | succ i =>
      have := skipAll_numbered n (n + 1) rest i r hi
      omega

theorem Runs.errors (hr : Runs h s n actions st results calls) : ∀ r ∈ results,
    r.status = StepResult.failed ∧ r.error.isSome ∧ r.errorType.isSome ∨
      r.status ≠ StepResult.failed ∧ r.error = none ∧ r.errorType = none := by
  induction hr with
  | done => intro r hmem; simp at hmem
  | pass _ _ _ ih =>
    intro r hmem
    rcases List.mem_cons.mp hmem with rfl | hmem
    · exact .inr ⟨StepResult.passed_ne_failed, rfl, rfl⟩
    · exact ih r hmem
  | @fail n a rest =>
    intro r hmem
    rcases List.mem_cons.mp hmem with rfl | hmem
    · exact .inl ⟨rfl, rfl, rfl⟩
    · exact .inr (skipAll_errors n (n + 1) rest r hmem)

/-- Where a run stops: either every action was done, and their requests are all there are; or some
action failed, and after its own requests only its picture was asked for. -/
def StopsAtFailure (h : Host σ) (s : Setting) (n : Int) (actions : List Action) (st : σ)
    (results : List StepResult) (calls : List Request) : Prop :=
  (results.map (·.status) = List.replicate actions.length StepResult.passed ∧
      ∃ st', Performs h s.config actions st st' calls) ∨
    ∃ (k : Nat) (a : Action) (e : StepError) (st₁ st₂ : σ) (before own picture : List Request),
      actions[k]? = some a ∧
      results.map (·.status) = List.replicate k StepResult.passed ++
        StepResult.failed :: List.replicate (actions.length - k - 1) StepResult.skipped ∧
      Performs h s.config (actions.take k) st st₁ before ∧
      (perform s.config a).run.Plays h st₁ (.error e) st₂ own ∧
      picture <+: pictureCalls s (n + k) a ∧ calls = before ++ own ++ picture

theorem Runs.stopsAtFailure (hr : Runs h s n actions st results calls) :
    StopsAtFailure h s n actions st results calls := by
  induction hr with
  | done n st => exact .inl ⟨rfl, st, .nil st⟩
  | @pass n a rest st st₁ own later details results duration acts _ ih =>
    rcases ih with ⟨hstatus, st', hall⟩ |
      ⟨k, b, e, st₂, st₃, before, theirs, picture, hb, hstatus, hbefore, hown, hpicture, rfl⟩
    · exact .inl ⟨congrArg (StepResult.passed :: ·) hstatus, st', .cons acts hall⟩
    · refine .inr ⟨k + 1, b, e, st₂, st₃, own ++ before, theirs, picture, hb, ?_,
        .cons acts hbefore, hown, ?_, ?_⟩
      · have hlen : (a :: rest).length - (k + 1) - 1 = rest.length - k - 1 := by simp
        rw [hlen, List.replicate_succ, List.cons_append]
        exact congrArg (StepResult.passed :: ·) hstatus
      · have hplace : n + ((k + 1 : Nat) : Int) = n + 1 + k := by omega
        rw [hplace]
        exact hpicture
      · simp only [List.append_assoc]
  | @fail n a rest st st₁ own picture e duration acts looks =>
    refine .inr ⟨0, a, e, st, st₁, [], own, picture, rfl, ?_, .nil st, acts,
      by simpa using looks, rfl⟩
    exact congrArg (StepResult.failed :: ·) (skipAll_statuses n (n + 1) rest)

theorem Runs.failFast (hr : Runs h s 1 actions st results calls) : FailFast actions results where
  length := by simpa using congrArg List.length hr.named
  numbered i r hi := by
    have := hr.numbered i r hi
    omega
  named := hr.named
  statuses := by
    rcases hr.stopsAtFailure with ⟨hstatus, -⟩ | ⟨k, a, e, _, _, _, _, _, ha, hstatus, -⟩
    · exact .inl hstatus
    · exact .inr ⟨k, (List.getElem?_eq_some_iff.mp ha).1, hstatus⟩
  errors := hr.errors

end Course

/-- At most one step of a run fails. -/
theorem FailFast.failed_unique {actions : List Action} {results : List StepResult}
    (hf : FailFast actions results) {x y : StepResult} (hx : x ∈ results) (hy : y ∈ results)
    (hxf : x.status = StepResult.failed) (hyf : y.status = StepResult.failed) : x = y := by
  rcases hf.statuses with hall | ⟨k, -, hone⟩
  · have hmem : x.status ∈ results.map (·.status) := List.mem_map_of_mem hx
    rw [hall, hxf] at hmem
    exact absurd (List.eq_of_mem_replicate hmem).symm StepResult.passed_ne_failed
  · obtain ⟨before, rest, rfl, hbefore, hrest⟩ := List.map_eq_append_iff.mp hone
    obtain ⟨f, after, rfl, -, hafter⟩ := List.map_eq_cons_iff.mp hrest
    -- nothing before or after the one in the middle failed
    have only : ∀ z ∈ before ++ f :: after, z.status = StepResult.failed → z = f := by
      intro z hz hzf
      rcases List.mem_append.mp hz with hz | hz
      · have hmem : z.status ∈ before.map (·.status) := List.mem_map_of_mem hz
        rw [hbefore, hzf] at hmem
        exact absurd (List.eq_of_mem_replicate hmem).symm StepResult.passed_ne_failed
      · rcases List.mem_cons.mp hz with rfl | hz
        · rfl
        · have hmem : z.status ∈ after.map (·.status) := List.mem_map_of_mem hz
          rw [hafter, hzf] at hmem
          exact absurd (List.eq_of_mem_replicate hmem).symm StepResult.skipped_ne_failed
    rw [only x hx hxf, only y hy hyf]

end Execution

end PlainSteps
