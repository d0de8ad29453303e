import Mathlib.Algebra.Order.Field.Rat
import PlainSteps.Proofs.Browser.Independence
import PlainSteps.Validation

/-! # Two words on the same runs

Whether a run succeeded is said twice. A session says so at its end, when it looks for a step that
failed or was broken by its browser; the validator asks of every step whether it passed, and of a
run without steps whether it has an error. The two agree because there are only two ways for a
session to end: with a result for each action, all passed up to the first failure, or without
results and with an error that has a message.
-/

namespace PlainSteps

open Script Execution

/-! ### Portions -/

section Portion

variable {α : Type} (p : α → Bool) (l : List α)

/-- The portion of the items of a list for which something holds; of no items it is zero. -/
def portion : ℚ := l.countP p / l.length

theorem portion_nonneg : 0 ≤ portion p l := div_nonneg (Nat.cast_nonneg _) (Nat.cast_nonneg _)

theorem portion_le_one : portion p l ≤ 1 :=
  div_le_one_of_le₀ (Nat.cast_le.mpr List.countP_le_length) (Nat.cast_nonneg _)

variable {l}

theorem portion_eq_one_iff (hne : l ≠ []) : portion p l = 1 ↔ ∀ x ∈ l, p x = true := by
  have hlength : (l.length : ℚ) ≠ 0 := Nat.cast_ne_zero.mpr (mt List.length_eq_zero_iff.mp hne)
  unfold portion
  rw [div_eq_one_iff_eq hlength, Nat.cast_inj, List.countP_eq_length]

end Portion

/-! ### Two ways to end -/

/-- The run of a sequence with a step for each action, a success when all passed; or one that was
broken before any step, with the message of what broke it. -/
inductive Run.Conclusive (seq : Sequence) (r : Run) : Prop where
  | steps (each : r.steps.length = seq.actions.length)
      (verdict : r.success = true ↔ ∀ x ∈ r.steps, x.status = StepResult.passed)
  | broken {e : Text} (none : r.steps = []) (failed : r.success = false)
      (error : r.error = some e) (spoken : e ≠ [])

section Ending

variable {seq : Sequence} {r r' : Run}

theorem Run.Conclusive.of_timeless (h : r.Conclusive seq) (heq : r.timeless = r'.timeless) :
    r'.Conclusive seq := by
  have hsteps : r.steps.map StepResult.timeless = r'.steps.map StepResult.timeless :=
    congrArg Run.steps heq
  have hsuccess : r.timeless.success = r'.timeless.success := congrArg Run.success heq
  have herror : r.timeless.error = r'.timeless.error := congrArg Run.error heq
  cases h with
  | steps each verdict =>
    have hpassed : ∀ l : List StepResult, (∀ x ∈ l, x.status = StepResult.passed) ↔
        ∀ x ∈ l.map StepResult.timeless, x.status = StepResult.passed :=
      fun l =>
        (List.forall_mem_map (f := StepResult.timeless)
          (P := fun x => x.status = StepResult.passed)).symm
    refine .steps ?_ ?_
    · rw [← each]
      simpa using (congrArg List.length hsteps).symm
    · rw [show r'.success = r.success from hsuccess.symm, verdict, hpassed, hsteps, ← hpassed]
  | broken none failed error spoken =>
    rw [none] at hsteps
    exact .broken (List.map_eq_nil_iff.mp hsteps.symm) (hsuccess.symm.trans failed)
      (herror.symm.trans error) spoken

namespace Validation

theorem validateRun_of_steps (hsteps : r.steps ≠ []) :
    validateRun r = r.steps.map (validateStep r.browser) := by
  unfold validateRun
  split
  · contradiction
  · rfl

theorem validateRun_of_error {e : Text} (hsteps : r.steps = []) (herror : r.error = some e)
    (he : e ≠ []) :
    validateRun r = [sessionVerdict r.browser e] := by
  have hfilter : r.error.filter (!·.isEmpty) = some e := by simpa [herror] using he
  rw [validateRun, hsteps, hfilter]

theorem isValid_validateStep_iff {browser : Text} {x : StepResult} :
    (validateStep browser x).isValid = true ↔ x.status = StepResult.passed := beq_iff_eq

theorem isValid_validateStep_of_ne {browser : Text} {x : StepResult}
    (h : x.status ≠ StepResult.passed) :
    (validateStep browser x).isValid = false := beq_eq_false_iff_ne.mpr h

/-- However the run of some actions ended, it has a verdict, and it succeeded just when its verdicts
are all valid. -/
theorem validateRun_agrees (hseq : seq.actions ≠ []) (h : r.Conclusive seq) :
    validateRun r ≠ [] ∧ (r.success = true ↔ ∀ v ∈ validateRun r, v.isValid = true) := by
  cases h with
  | steps each verdict =>
    have hsteps : r.steps ≠ [] := by
      intro hnil
      rw [hnil] at each
      exact hseq (List.length_eq_zero_iff.mp each.symm)
    rw [validateRun_of_steps hsteps, verdict]
    refine ⟨by simpa using hsteps, ?_⟩
    simp only [List.forall_mem_map, isValid_validateStep_iff]
  | broken none failed error spoken =>
    rw [validateRun_of_error none error spoken, failed]
    exact ⟨List.cons_ne_nil _ _, iff_of_false Bool.false_ne_true fun h => nomatch h _ (.head _)⟩

end Validation

end Ending

namespace Session

/-! ### Sessions that end -/

section Ends

variable {σ : Type} {h : Host σ} {s : Setting} {seq : Sequence} {prompt : Prompt} {st st' : σ}
  {calls : List Request}

/-- Whenever the browser ends a session that begins in a state, it says why. -/
def Spoken (h : Host σ) (s : Setting) (seq : Sequence) (browser : Text) (st : σ) : Prop :=
  ∀ f, Fails h s seq browser st f → f.isBrowser = true → f.message ≠ []

/-- Browsers with the states in which their sessions begin, one after the other. -/
def beginnings (h : Host σ) (s : Setting) (seq : Sequence) (prompt : Prompt) :
    List Text → σ → List (Text × σ)
  | [], _ => []
  | b :: rest, st =>
    (b, st) :: beginnings h s seq prompt rest ((run s seq prompt b).play h st).value.2

theorem spoken_iff {browser : Text} :
    Spoken h s seq browser st ↔
      ∀ f, ((steps s seq browser).run.play h st).value.1 = .error f → f.isBrowser = true →
      f.message ≠ [] := by
  have hplays := plays_self h (steps s seq browser).run st
  refine forall_congr' fun f => imp_congr_left ?_
  rw [← steps_error_iff]
  constructor
  · rintro ⟨st', calls, herror⟩
    exact (hplays.unique herror).1
  · intro hvalue
    rw [hvalue] at hplays
    exact ⟨_, _, hplays⟩

theorem conclusive_of_plays {browser : Text} {r : Run} (hseq : seq.actions ≠ [])
    (hspoken : Spoken h s seq browser st)
    (hp : (run s seq prompt browser).Plays h st (.ok r) st' calls) : r.Conclusive seq := by
  have hsuccess := success_iff hseq hp
  rcases run_plays hp with ⟨f, duration, hsteps, hbrowser, rfl⟩ | ⟨results, duration, hsteps, rfl⟩
  · exact .broken rfl rfl rfl (hspoken f (steps_error_iff.mp ⟨_, _, hsteps⟩) hbrowser)
  · obtain ⟨st₁, own, hruns, -⟩ := steps_plays hsteps
    have hlength := hruns.failFast.length
    exact .steps hlength (hsuccess.trans (and_iff_right hlength))

theorem conclusive_of_inTurn {browsers : List Text} {runs : List Run} (hseq : seq.actions ≠ [])
    (hspoken : ∀ p ∈ beginnings h s seq prompt browsers st, Spoken h s seq p.1 p.2)
    (hp : (inTurn (run s seq prompt) browsers).Plays h st (.ok runs) st' calls) :
    ∀ r ∈ runs, r.Conclusive seq := by
  induction browsers generalizing st runs calls with
  | nil =>
    obtain ⟨hruns, -, -⟩ := plays_pure_iff.mp hp
    cases hruns
    exact List.forall_mem_nil _
  | cons b rest ih =>
    obtain ⟨r, others, st₁, own, later, hfirst, hothers, rfl, -⟩ := inTurn_cons_ok_iff.mp hp
    obtain ⟨hb, hrest⟩ := List.forall_mem_cons.mp hspoken
    rw [hfirst.ends] at hrest
    exact List.forall_mem_cons.mpr ⟨conclusive_of_plays hseq hb hfirst, ih hrest hothers⟩

/-- A session among those that each end as they do alone is played alone to the same run, but for
the time. -/
theorem EachAlone.exists_plays {τ : Type} {g : Pages σ τ} {n : Nat} {browsers : List Text}
    {runs : List Run} (hruns : EachAlone g s seq prompt n browsers runs) {r : Run} (hr : r ∈ runs) :
    ∃ i b r' st' calls, browsers[i]? = some b ∧
      (run s seq prompt b).Plays g.alone (g.unopened (n + i)) (.ok r') st' calls ∧
      r'.timeless = r.timeless := by
  have hmem : Except.ok r.timeless ∈ (aloneFrom g s seq prompt n browsers).map
      (·.map Run.timeless) := by
    rw [← hruns.alone]
    exact List.mem_map.mpr ⟨r, hr, rfl⟩
  obtain ⟨x, hx, hsame⟩ := List.mem_map.mp hmem
  obtain ⟨i, b, hb, rfl⟩ := (mem_aloneFrom_iff g s seq prompt).mp hx
  obtain ⟨r', halone, htimeless⟩ := map_eq_ok_iff.mp hsame
  have hplays := plays_self g.alone (run s seq prompt b) (g.unopened (n + i))
  rw [show ((run s seq prompt b).play g.alone (g.unopened (n + i))).value.1 = .ok r' from halone]
    at hplays
  exact ⟨i, b, r', _, _, hb, hplays, htimeless⟩

/-- Sessions that each end as they do alone end in one of the two ways. -/
theorem EachAlone.conclusive {τ : Type} {g : Pages σ τ} {n : Nat} {browsers : List Text}
    {runs : List Run} (hseq : seq.actions ≠ [])
    (hspoken : ∀ (i : Nat) (b : Text), browsers[i]? = some b →
      Spoken g.alone s seq b (g.unopened (n + i)))
    (hruns : EachAlone g s seq prompt n browsers runs) : ∀ r ∈ runs, r.Conclusive seq := by
  intro r hr
  obtain ⟨i, b, r', _, _, hb, hplays, htimeless⟩ := hruns.exists_plays hr
  -- the run of the session alone ends in one of the two ways, and they do not look at the time
  exact (conclusive_of_plays hseq (hspoken i b hb) hplays).of_timeless htimeless

end Ends

end Session

namespace Validation

/-! ### Agreement -/

/-- What executor and validator say of the same runs. -/
structure Agrees (o : Session.Outcome) : Prop where
  each : ∀ r ∈ o.runs, validateRun r ≠ [] ∧
    (r.success = true ↔ ∀ v ∈ validateRun r, v.isValid = true)
  /-- The confidence of the executor is a portion as a number of double precision. -/
  executor : o.confidence = Session.share (o.runs.countP (·.success)) o.runs.length
  executor_mem : portion (·.success) o.runs ∈ Set.Icc 0 1
  executor_eq_one : portion (·.success) o.runs = 1 ↔ ∀ r ∈ o.runs, r.success = true
  /-- So is that of the validator. -/
  validator : (validate o.runs).value.2 =
    Session.share ((validate o.runs).value.1.countP (·.isValid)) (validate o.runs).value.1.length
  validator_mem : portion (·.isValid) (validate o.runs).value.1 ∈ Set.Icc 0 1
  validator_eq_one : portion (·.isValid) (validate o.runs).value.1 = 1 ↔
    portion (·.success) o.runs = 1

/-- Runs that ended in one of the two ways leave nothing to disagree about. -/
theorem agrees_of_conclusive {seq : Sequence} {runs : List Run} (hseq : seq.actions ≠ [])
    (hne : runs ≠ []) (hall : ∀ r ∈ runs, r.Conclusive seq) :
    Agrees ⟨runs, Session.confidence runs⟩ := by
  have heach : ∀ r ∈ runs, validateRun r ≠ [] ∧
      (r.success = true ↔ ∀ v ∈ validateRun r, v.isValid = true) :=
    fun r hr => validateRun_agrees hseq (hall r hr)
  have hverdicts : verdicts runs ≠ [] := by
    obtain ⟨r, hr⟩ := List.exists_mem_of_ne_nil runs hne
    exact fun hnil => (heach r hr).1 (List.flatMap_eq_nil_iff.mp hnil r hr)
  have hexecutor := portion_eq_one_iff (·.success) hne
  refine ⟨heach, rfl, ⟨portion_nonneg _ _, portion_le_one _ _⟩, hexecutor, rfl,
    ⟨portion_nonneg _ _, portion_le_one _ _⟩, ?_⟩
  rw [hexecutor, show (validate runs).value.1 = verdicts runs from rfl,
    portion_eq_one_iff _ hverdicts]
  unfold verdicts
  simp only [List.forall_mem_flatMap]
  exact forall₂_congr fun r hr => (heach r hr).2.symm

/-- **Executor and validator come to the same verdict.** Take a sequence of at least one action, and
browsers that say why they end a session. Run it on all of them, in turn or side by side, or let the
sessions take turns in any order: each run has a verdict and succeeded just when its verdicts are
all valid. So the exact confidences, both between zero and one, are one together, and this is so
just when every run succeeded. -/
theorem verdicts_agree (s : Session.Setting) {seq : Sequence} (hseq : seq.actions ≠ [])
    (prompt : Prompt) (requested : List Text) :
    (∀ {σ : Type} (h : Host σ) (parallel : Bool) (st st' : σ) (o : Session.Outcome)
      (calls : List Request), (Session.runAll s seq prompt requested parallel).Plays h st
        (.ok o) st' calls →
      (∀ p ∈ Session.beginnings h s seq prompt (selectBrowsers requested).value st,
        Session.Spoken h s seq p.1 p.2) → Agrees o) ∧
    ∀ {σ τ : Type} (g : Pages σ τ) (n : Nat) (runs : List Run),
      Session.Gathers g.answer (Session.crewFrom g s seq prompt n (selectBrowsers requested).value)
        (.ok runs) →
      (∀ (i : Nat) (b : Text), (selectBrowsers requested).value[i]? = some b →
        Session.Spoken g.alone s seq b (g.unopened (n + i))) → Agrees ⟨runs,
          Session.confidence runs⟩ := by
  have hbrowsers := (selectBrowsers_known requested).1
  constructor
  · intro σ h parallel st st' o calls hp hspoken
    obtain ⟨runs, hruns, rfl⟩ := Session.runAll_ok_iff.mp hp
    have hne : runs ≠ [] := Session.ne_nil_of_inTurn hbrowsers hruns
    exact agrees_of_conclusive hseq hne (Session.conclusive_of_inTurn hseq hspoken hruns)
  · intro σ τ g n runs hgathers hspoken
    -- in whatever order they took turns, each session has ended as it does alone
    rcases hgathers.alone with ⟨runs', hsame, halone⟩ | ⟨e, he, -⟩
    · cases hsame
      have hne : runs ≠ [] := by
        rintro rfl
        exact hbrowsers halone.browser.symm
      exact agrees_of_conclusive hseq hne (halone.conclusive hseq hspoken)
    · cases he

/-- A browser that is refused says so, and is the only one without success and without a valid
verdict. -/
theorem verdicts_agree_refused :
    ∃ o,
      ((Session.runAll Session.pictured ⟨[Action.wait 5 "Wait"]⟩ {} Session.threeBrowsers true).play
        Session.refusedPages.host (0, {})).value.1 = .ok o ∧
      Agrees o ∧ o.runs.map (·.success) = [true, false, true] ∧
      (verdicts o.runs).map (·.isValid) = [true, false, true] ∧
      Session.Gathers Session.refusedPages.answer
        (Session.crewFrom Session.refusedPages Session.pictured
        ⟨[Action.wait 5 "Wait"]⟩ {} 0 Session.threeBrowsers) (.ok o.runs) ∧
      Agrees ⟨o.runs, Session.confidence o.runs⟩ := by
  have hseq : (⟨[Action.wait 5 "Wait"]⟩ : Sequence).actions ≠ [] := List.cons_ne_nil _ _
  obtain ⟨honeByOne, hturns⟩ := verdicts_agree Session.pictured hseq {} Session.threeBrowsers
  have hspoken :
    ∀ p ∈ Session.beginnings Session.refusedPages.host Session.pictured ⟨[Action.wait 5 "Wait"]⟩ {}
      Session.threeBrowsers (0, {}),
      Session.Spoken Session.refusedPages.host Session.pictured
        ⟨[Action.wait 5 "Wait"]⟩ p.1 p.2 := by
    refine List.forall_mem_cons.mpr
      ⟨?_, List.forall_mem_cons.mpr ⟨?_, List.forall_mem_cons.mpr ⟨?_, nofun⟩⟩⟩
    · exact Session.spoken_iff.mpr fun f hf _ => by cases hf
    · exact Session.spoken_iff.mpr fun f hf _ => by cases hf; decide
    · exact Session.spoken_iff.mpr fun f hf _ => by cases hf
  have hgathers :=
    Session.runAll_gathers Session.refusedPages Session.pictured ⟨[Action.wait 5 "Wait"]⟩ {}
    Session.threeBrowsers true (0, {})
  refine ⟨_, rfl, honeByOne _ true _ _ _ _ ⟨rfl, rfl⟩ hspoken, rfl, rfl, hgathers,
    hturns _ 0 _ hgathers ?_⟩
  intro i b hb
  refine Session.spoken_iff.mpr fun f hf _ => ?_
  match i with
  | 0 => cases hb; cases hf
  | 1 => cases hb; cases hf; decide
  | 2 => cases hb; cases hf
  | i + 3 => cases hb

end Validation

end PlainSteps
