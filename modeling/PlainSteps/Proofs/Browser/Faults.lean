import PlainSteps.Proofs.Browser.Breakage
import PlainSteps.Proofs.Browser.Timeless

/-! # Sessions without a result

A session whose browser fails has a result that says so. A session has no result for a fault from
elsewhere, when its browser is launched or closed, its page opened or a picture taken, or for a time
that is too long to be told.
-/

namespace PlainSteps

open Script Execution

namespace Session

variable {σ : Type} {h : Host σ} {s : Setting} {seq : Sequence} {prompt : Prompt}
  {browser : Text} {st st' : σ} {calls : List Request}

/-- The steps of a session end in a fault: its browser cannot be launched, no page can be opened,
the picture of a failed action breaks the run, or the browser cannot be closed. -/
inductive Fails (h : Host σ) (s : Setting) (seq : Sequence) (browser : Text) (st : σ) (f : Fault) :
    Prop where
  | launch {st₁ : σ} (refused : h.answer (opening s browser) st = (.error f, st₁)) :
      Fails h s seq browser st f
  | page {st₁ st₂ st₃ : σ} (launched : h.answer (opening s browser) st = (.ok (), st₁))
      (refused : h.answer .newPage st₁ = (.error f, st₂))
        (closed : h.answer .close st₂ = (.ok (), st₃)) :
      Fails h s seq browser st f
  | picture {st₁ st₂ st₃ st₄ : σ} {own : List Request}
      (launched : h.answer (opening s browser) st = (.ok (), st₁))
      (entered : h.answer .newPage st₁ = (.ok (), st₂))
      (breaks : Breaks h (execution s browser) 1 seq.actions st₂ f st₃ own)
      (closed : h.answer .close st₃ = (.ok (), st₄)) : Fails h s seq browser st f
  | close {st₁ st₂ st₃ : σ} {own : List Request} {outcome : Except Fault (List StepResult)}
      (launched : h.answer (opening s browser) st = (.ok (), st₁))
      (visits : (visit s seq browser).run.Plays h st₁ outcome st₂ own)
      (refused : h.answer .close st₂ = (.error f, st₃)) : Fails h s seq browser st f

/-- A request that is refused is the end; otherwise all goes on from the answer. -/
theorem plays_request_bind_iff {α : Type} {q : Request} {next : q.Reply → ExceptT Fault Script α}
    {r : Except Fault α} :
    (request q >>= next).run.Plays h st r st' calls ↔
      (∃ f, h.answer q st = (.error f, st') ∧ r = .error f ∧ calls = [q]) ∨
      ∃ a st₁ own, h.answer q st = (.ok a, st₁) ∧ (next a).run.Plays h st₁ r st' own ∧
        calls = q :: own := by
  rw [plays_run_bind_iff]
  constructor
  · rintro (⟨f, hask, rfl⟩ | ⟨a, st₁, _, own, hask, hnext, rfl⟩)
    · obtain ⟨hrefused, rfl⟩ := plays_request_iff.mp hask
      exact .inl ⟨f, hrefused, rfl, rfl⟩
    · obtain ⟨hanswer, rfl⟩ := plays_request_iff.mp hask
      exact .inr ⟨a, st₁, own, hanswer, hnext, rfl⟩
  · rintro (⟨f, hrefused, rfl, rfl⟩ | ⟨a, st₁, own, hanswer, hnext, rfl⟩)
    · exact .inl ⟨f, plays_request_iff.mpr ⟨hrefused, rfl⟩, rfl⟩
    · exact .inr ⟨a, st₁, [q], own, plays_request_iff.mpr ⟨hanswer, rfl⟩, hnext, rfl⟩

/-- A session ends as its visit does, unless its browser cannot be closed. -/
theorem inside_plays_iff {r : Except Fault (List StepResult)} :
    (inside s seq browser).run.Plays h st r st' calls ↔
      ∃ outcome st₂ own, (visit s seq browser).run.Plays h st outcome st₂ own ∧
      calls = own ++ [.close] ∧
        ((∃ f, h.answer .close st₂ = (.error f, st') ∧ r = .error f) ∨
          h.answer .close st₂ = (.ok (), st') ∧ r = outcome) := by
  unfold inside
  rw [run_lift_bind, plays_bind_iff]
  constructor
  · rintro ⟨outcome, st₂, own, later, hvisit, hclosing, rfl⟩
    refine ⟨outcome, st₂, own, hvisit, ?_⟩
    rcases plays_request_bind_iff.mp hclosing with ⟨f, hrefused, rfl, rfl⟩ |
      ⟨_, _, _, hclosed, hlast, rfl⟩
    · exact ⟨rfl, .inl ⟨f, hrefused, rfl⟩⟩
    · obtain ⟨rfl, rfl, rfl⟩ := plays_pure_iff.mp hlast
      exact ⟨rfl, .inr ⟨hclosed, rfl⟩⟩
  · rintro ⟨outcome, st₂, own, hvisit, rfl, hclose⟩
    refine ⟨outcome, st₂, own, [.close], hvisit, plays_request_bind_iff.mpr ?_, rfl⟩
    rcases hclose with ⟨f, hrefused, rfl⟩ | ⟨hclosed, rfl⟩
    · exact .inl ⟨f, hrefused, rfl, rfl⟩
    · exact .inr ⟨(), st', [], hclosed, plays_pure_iff.mpr ⟨rfl, rfl, rfl⟩, rfl⟩

theorem visit_error_iff {f : Fault} :
    (visit s seq browser).run.Plays h st (.error f) st' calls ↔
      h.answer .newPage st = (.error f, st') ∧ calls = [.newPage] ∨
      ∃ st₁ own, h.answer .newPage st = (.ok (), st₁) ∧
        Breaks h (execution s browser) 1 seq.actions st₁ f st' own ∧ calls = .newPage :: own := by
  unfold visit
  rw [plays_request_bind_iff]
  constructor
  · rintro (⟨e, hrefused, he, rfl⟩ | ⟨_, st₁, own, hentered, hrun, rfl⟩)
    · cases he
      exact .inl ⟨hrefused, rfl⟩
    · exact .inr ⟨st₁, own, hentered, runFrom_error_iff.mp hrun, rfl⟩
  · rintro (⟨hrefused, rfl⟩ | ⟨st₁, own, hentered, hbreaks, rfl⟩)
    · exact .inl ⟨f, hrefused, rfl, rfl⟩
    · exact .inr ⟨(), st₁, own, hentered, runFrom_error_iff.mpr hbreaks, rfl⟩

theorem steps_error_iff {f : Fault} :
    (∃ st' calls, (steps s seq browser).run.Plays h st (.error f) st' calls) ↔
    Fails h s seq browser st f := by
  simp only [steps_eq, plays_request_bind_iff, inside_plays_iff]
  constructor
  · rintro ⟨st', calls,
      ⟨e, hrefused, he, -⟩ | ⟨_, st₁, _, hlaunched, ⟨outcome, st₂, own, hvisit, -, hclose⟩, -⟩⟩
    · cases he
      exact .launch hrefused
    · rcases hclose with ⟨e, hrefused, he⟩ | ⟨hclosed, rfl⟩
      · cases he
        exact .close hlaunched hvisit hrefused
      · rcases visit_error_iff.mp hvisit with ⟨hrefused, -⟩ | ⟨st₃, own', hentered, hbreaks, -⟩
        · exact .page hlaunched hrefused hclosed
        · exact .picture hlaunched hentered hbreaks hclosed
  · rintro (⟨hrefused⟩ | ⟨hlaunched, hrefused, hclosed⟩ | ⟨hlaunched, hentered, hbreaks, hclosed⟩ |
      ⟨hlaunched, hvisit, hrefused⟩)
    · exact ⟨_, _, .inl ⟨f, hrefused, rfl, rfl⟩⟩
    · exact ⟨_, _, .inr ⟨(), _, _, hlaunched,
        ⟨_, _, _, visit_error_iff.mpr (.inl ⟨hrefused, rfl⟩), rfl, .inr ⟨hclosed, rfl⟩⟩, rfl⟩⟩
    · exact ⟨_, _, .inr ⟨(), _, _, hlaunched,
        ⟨_, _, _, visit_error_iff.mpr (.inr ⟨_, _, hentered, hbreaks, rfl⟩), rfl,
          .inr ⟨hclosed, rfl⟩⟩, rfl⟩⟩
    · exact ⟨_, _, .inr ⟨(), _, _, hlaunched, ⟨_, _, _, hvisit, rfl, .inl ⟨f, hrefused, rfl⟩⟩, rfl⟩⟩

/-- A time that is too long to be told leaves a session without its result. -/
theorem settle_error_iff {r : Run} {e : SessionError} :
    (settle browser r).Plays h st (.error e) st' calls ↔
      seconds? r.duration = none ∧ e = .duration ∧ st' = st ∧ calls = [] := by
  unfold settle
  cases seconds? r.duration with
  | none => simp [plays_pure_iff]
  | some seconds =>
    dsimp only
    rw [plays_tell_bind_iff, plays_pure_iff]
    exact iff_of_false (by rintro ⟨⟨⟩, -⟩) (by rintro ⟨⟨⟩, -⟩)

theorem conclude_error_iff {start : Int} {outcome : Except Fault (List StepResult)}
    {e : SessionError} :
    (conclude prompt browser start outcome).Plays h st (.error e) st' calls ↔
      ((∃ f, outcome = .error f ∧ f.isBrowser = false ∧ e = .fault f) ∨
        ∃ results, outcome = .ok results ∧ seconds? (h.time st - start) = none ∧ e = .duration) ∧
      st' = st ∧ calls = [] := by
  unfold conclude
  cases outcome with
  | error f =>
    dsimp only
    split
    · rename_i hbrowser
      rw [plays_tell_bind_iff, plays_now_bind_iff, plays_pure_iff]
      simp [hbrowser]
    · rename_i hforeign
      rw [plays_pure_iff]
      simp [hforeign]
  | ok results =>
    dsimp only
    rw [plays_now_bind_iff, settle_error_iff]
    simp [finished, and_assoc]

/-- A session has no result when its steps end in a fault that is not of the browser, or when the
time it took is too long to be told. -/
theorem run_error_iff {e : SessionError} :
    (run s seq prompt browser).Plays h st (.error e) st' calls ↔
      (∃ f, e = .fault f ∧ f.isBrowser = false ∧
        (steps s seq browser).run.Plays h st (.error f) st' calls) ∨
      e = .duration ∧ seconds? (h.time st' - h.time st) = none ∧
        ∃ results, (steps s seq browser).run.Plays h st (.ok results) st' calls := by
  rw [run_eq, plays_tell_bind_iff, plays_now_bind_iff, plays_bind_iff]
  constructor
  · rintro ⟨outcome, st₁, own, later, hsteps, hlater, rfl⟩
    obtain ⟨hcause, rfl, rfl⟩ := conclude_error_iff.mp hlater
    rw [List.append_nil]
    rcases hcause with ⟨f, rfl, hforeign, rfl⟩ | ⟨results, rfl, hlong, rfl⟩
    · exact .inl ⟨f, rfl, hforeign, hsteps⟩
    · exact .inr ⟨rfl, hlong, results, hsteps⟩
  · rintro (⟨f, rfl, hforeign, hsteps⟩ | ⟨rfl, hlong, results, hsteps⟩)
    · exact ⟨.error f, st', calls, [], hsteps,
        conclude_error_iff.mpr ⟨.inl ⟨f, rfl, hforeign, rfl⟩, rfl, rfl⟩,
          (List.append_nil calls).symm⟩
    · exact ⟨.ok results, st', calls, [], hsteps,
        conclude_error_iff.mpr ⟨.inr ⟨results, rfl, hlong, rfl⟩, rfl, rfl⟩,
          (List.append_nil calls).symm⟩

end Session

end PlainSteps
