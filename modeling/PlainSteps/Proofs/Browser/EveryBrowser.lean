import PlainSteps.Proofs.Browser.Verdict

/-! # A sequence on every browser

A sequence runs in one session for each selected browser. When every session ends with a result, it
makes no difference to the results whether they were to run in turn or side by side: there is one
for each browser, in their order. A session passes when it ends with one result for each action, all
of them passed, and this is what its verdict says.
-/

namespace PlainSteps

open Script Execution

variable {σ : Type} {h : Host σ}

/-! ### One after the other -/

/-- Every item of a list does its part, each from the state in which the one before it left the
host. -/
inductive OneByOne {α : Type} (part : α → σ → σ → Prop) : List α → σ → σ → Prop where
  | nil (st : σ) : OneByOne part [] st st
  | cons {a : α} {rest : List α} {st st₁ st' : σ} (first : part a st st₁)
      (next : OneByOne part rest st₁ st') :
      OneByOne part (a :: rest) st st'

/-! ### Selected browsers -/

/-- Browsers that were selected are known, and there is at least one. -/
theorem selectBrowsers_known (requested : List Text) :
    (selectBrowsers requested).value ≠ [] ∧
      ∀ b ∈ (selectBrowsers requested).value, engines.any (·.1 == b) = true := by
  have hdefault : [defaultBrowser] ≠ [] ∧ ∀ b ∈ [defaultBrowser], engines.any (·.1 == b) = true :=
    by decide
  unfold selectBrowsers
  split
  · exact hdefault
  · dsimp only
    split
    · exact hdefault
    · rename_i hvalid
      exact ⟨by simpa using hvalid, fun b hb => (List.mem_filter.mp hb).2⟩

namespace Session

/-! ### In turn or side by side -/

section Modes

variable {session : Text → Script (Except SessionError Run)} {st st' : σ}
  {calls : List Request} {runs : List Run}

theorem inTurn_cons_ok_iff {b : Text} {rest : List Text} :
    (inTurn session (b :: rest)).Plays h st (.ok runs) st' calls ↔
      ∃ r others st₁ own later, (session b).Plays h st (.ok r) st₁ own ∧
        (inTurn session rest).Plays h st₁ (.ok others) st' later ∧ runs = r :: others ∧
        calls = own ++ later := by
  rw [inTurn, plays_bind_iff]
  constructor
  · rintro ⟨outcome, st₁, own, later, hfirst, hlater, rfl⟩
    cases outcome with
    | error e => cases (plays_pure_iff.mp hlater).1
    | ok r =>
      obtain ⟨others, hrest, rfl⟩ := plays_map_ok_iff.mp hlater
      exact ⟨r, others, st₁, own, later, hfirst, hrest, rfl, rfl⟩
  · rintro ⟨r, others, st₁, own, later, hfirst, hrest, rfl, rfl⟩
    exact ⟨.ok r, st₁, own, later, hfirst, plays_map_ok_iff.mpr ⟨others, hrest, rfl⟩, rfl⟩

theorem collect_allOf_cons_ok_iff {b : Text} {rest : List Text} :
    (collect <$> allOf session (b :: rest)).Plays h st (.ok runs) st' calls ↔
      ∃ r others st₁ own later, (session b).Plays h st (.ok r) st₁ own ∧
        (collect <$> allOf session rest).Plays h st₁ (.ok others) st' later ∧ runs = r :: others ∧
          calls = own ++ later := by
  rw [allOf]
  simp only [map_eq_pure_bind, bind_assoc, pure_bind]
  rw [plays_bind_iff]
  constructor
  · rintro ⟨outcome, st₁, own, later, hfirst, hlater, rfl⟩
    obtain ⟨outcomes, st₂, before, after, hrest, hlast, rfl⟩ := plays_bind_iff.mp hlater
    obtain ⟨hruns, rfl, rfl⟩ := plays_pure_iff.mp hlast
    -- one session without a result is enough for none to be handed on
    cases outcome with
    | error e => cases hruns
    | ok r =>
      cases hothers : collect outcomes with
      | error e =>
        rw [collect, hothers] at hruns
        cases hruns
      | ok others =>
        rw [collect, hothers] at hruns
        cases hruns
        exact ⟨r, others, st₁, own, before ++ [], hfirst,
          plays_bind_iff.mpr ⟨outcomes, _, before, [], hrest,
            plays_pure_iff.mpr ⟨hothers.symm, rfl, rfl⟩, rfl⟩,
          rfl, rfl⟩
  · rintro ⟨r, others, st₁, own, later, hfirst, hrest, rfl, rfl⟩
    obtain ⟨outcomes, st₂, before, after, hall, hlast, rfl⟩ := plays_bind_iff.mp hrest
    obtain ⟨hothers, rfl, rfl⟩ := plays_pure_iff.mp hlast
    refine ⟨.ok r, st₁, own, before ++ [], hfirst,
      plays_bind_iff.mpr ⟨outcomes, _, before, [], hall, ?_, rfl⟩, rfl⟩
    refine plays_pure_iff.mpr ⟨?_, rfl, rfl⟩
    rw [collect, ← hothers]
    rfl

/-- Sessions that all end with a result do so alike in turn and side by side. -/
theorem collect_allOf_ok_iff {browsers : List Text} :
    (collect <$> allOf session browsers).Plays h st (.ok runs) st' calls ↔
      (inTurn session browsers).Plays h st (.ok runs) st' calls := by
  induction browsers generalizing st runs calls with
  | nil => rfl
  | cons b rest ih => simp only [collect_allOf_cons_ok_iff, inTurn_cons_ok_iff, ih]

end Modes

section Passing

variable {s : Setting} {seq : Sequence} {prompt : Prompt} {st st' : σ} {calls : List Request}

/-- The outcome of every browser, where there is one. -/
theorem runAll_ok_iff {requested : List Text} {parallel : Bool} {o : Outcome} :
    (runAll s seq prompt requested parallel).Plays h st (.ok o) st' calls ↔
      ∃ runs, (inTurn (run s seq prompt) (selectBrowsers requested).value).Plays h st
        (.ok runs) st' calls ∧
        o = ⟨runs, confidence runs⟩ := by
  unfold runAll
  dsimp only
  rw [plays_telling_iff, plays_tell_bind_iff]
  split
  · simp only [plays_map_ok_iff, collect_allOf_ok_iff, eq_comm]
  · simp only [plays_map_ok_iff, eq_comm]

/-- A session ends with one result for each action, all of them passed. -/
def Passes (h : Host σ) (s : Setting) (seq : Sequence) (prompt : Prompt) (browser : Text)
    (st st' : σ) : Prop :=
  ∃ r calls, (run s seq prompt browser).Plays h st (.ok r) st' calls ∧
    r.steps.length = seq.actions.length ∧ ∀ x ∈ r.steps, x.status = StepResult.passed

/-- The verdict of a session on at least one action is that it passed. -/
theorem success_iff {browser : Text} {r : Run} (hseq : seq.actions ≠ [])
    (hp : (run s seq prompt browser).Plays h st (.ok r) st' calls) :
    r.success = true ↔ r.steps.length = seq.actions.length ∧ ∀ x ∈ r.steps,
      x.status = StepResult.passed := by
  rcases run_plays hp with ⟨f, duration, -, -, rfl⟩ | ⟨results, duration, hsteps, rfl⟩
  · -- a broken session has no steps, and no success
    refine iff_of_false Bool.false_ne_true fun hall => hseq (List.length_eq_zero_iff.mp hall.1.symm)
  · obtain ⟨st₁, own, hruns, -⟩ := steps_plays hsteps
    have hfast : FailFast seq.actions results := hruns.failFast
    rw [(finished_verdict hfast).1]
    show (∀ x ∈ results, x.status ≠ StepResult.failed) ↔
      results.length = seq.actions.length ∧ ∀ x ∈ results, x.status = StepResult.passed
    constructor
    · intro hnone
      refine ⟨hfast.length, ?_⟩
      rcases hfast.statuses with hall | ⟨k, -, hone⟩
      · intro x hx
        exact List.eq_of_mem_replicate (hall ▸ List.mem_map_of_mem hx)
      · have hmem : StepResult.failed ∈ results.map (·.status) := by
          rw [hone]
          exact List.mem_append_right _ (.head _)
        obtain ⟨x, hx, hxf⟩ := List.mem_map.mp hmem
        exact absurd hxf (hnone x hx)
    · rintro ⟨-, hall⟩ x hx hxf
      exact StepResult.passed_ne_failed ((hall x hx).symm.trans hxf)

/-- The sessions of all browsers pass just when they end with results that all succeeded. -/
theorem oneByOne_passes_iff {browsers : List Text} (hseq : seq.actions ≠ []) :
    OneByOne (Passes h s seq prompt) browsers st st' ↔
      ∃ runs calls, (inTurn (run s seq prompt) browsers).Plays h st (.ok runs) st' calls ∧
        ∀ r ∈ runs, r.success = true := by
  induction browsers generalizing st with
  | nil =>
    constructor
    · rintro ⟨-⟩
      exact ⟨[], [], plays_pure_iff.mpr ⟨rfl, rfl, rfl⟩, by simp⟩
    · rintro ⟨runs, calls, hp, -⟩
      obtain ⟨-, rfl, -⟩ := plays_pure_iff.mp hp
      exact .nil st'
  | cons b rest ih =>
    simp only [inTurn_cons_ok_iff]
    constructor
    · rintro (_ | ⟨⟨r, own, hr, hpassed⟩, hnext⟩)
      obtain ⟨others, later, hothers, hsuccess⟩ := ih.mp hnext
      refine ⟨r :: others, own ++ later, ⟨r, others, _, own, later, hr, hothers, rfl, rfl⟩, ?_⟩
      intro x hx
      rcases List.mem_cons.mp hx with rfl | hx
      · exact (success_iff hseq hr).mpr hpassed
      · exact hsuccess x hx
    · rintro ⟨_, _, ⟨r, others, st₁, own, later, hr, hothers, rfl, rfl⟩, hsuccess⟩
      have hfirst : Passes h s seq prompt b st st₁ :=
        ⟨r, own, hr, (success_iff hseq hr).mp (hsuccess r (.head _))⟩
      exact .cons hfirst (ih.mpr ⟨others, later, hothers, fun x hx => hsuccess x (.tail _ hx)⟩)

/-- There is one result for each browser. -/
theorem length_of_inTurn {browsers : List Text} {runs : List Run}
    (hp : (inTurn (run s seq prompt) browsers).Plays h st (.ok runs) st' calls) :
    runs.length = browsers.length := by
  induction browsers generalizing st runs calls with
  | nil =>
    obtain ⟨hruns, -, -⟩ := plays_pure_iff.mp hp
    cases hruns
    rfl
  | cons b rest ih =>
    obtain ⟨r, others, _, _, _, -, hothers, rfl, -⟩ := inTurn_cons_ok_iff.mp hp
    exact congrArg (· + 1) (ih hothers)

theorem ne_nil_of_inTurn {browsers : List Text} {runs : List Run} (hbrowsers : browsers ≠ [])
    (hp : (inTurn (run s seq prompt) browsers).Plays h st (.ok runs) st' calls) : runs ≠ [] := by
  rintro rfl
  exact hbrowsers (List.length_eq_zero_iff.mp (length_of_inTurn hp).symm)

/-- Every run is that of a session on one of the browsers. -/
theorem exists_plays_of_inTurn {browsers : List Text} {runs : List Run}
    (hp : (inTurn (run s seq prompt) browsers).Plays h st (.ok runs) st' calls) {r : Run}
    (hr : r ∈ runs) :
    ∃ b ∈ browsers, ∃ st₁ st₂ own, (run s seq prompt b).Plays h st₁ (.ok r) st₂ own := by
  induction browsers generalizing st runs calls with
  | nil =>
    obtain ⟨hruns, -, -⟩ := plays_pure_iff.mp hp
    cases hruns
    cases hr
  | cons b rest ih =>
    obtain ⟨first, others, st₁, own, _, hfirst, hothers, rfl, -⟩ := inTurn_cons_ok_iff.mp hp
    rcases List.mem_cons.mp hr with rfl | hr
    · exact ⟨b, .head rest, st, st₁, own, hfirst⟩
    · obtain ⟨b', hb', hplays⟩ := ih hothers hr
      exact ⟨b', .tail b hb', hplays⟩

end Passing

end Session

end PlainSteps
