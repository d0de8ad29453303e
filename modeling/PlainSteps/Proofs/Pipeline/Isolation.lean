import PlainSteps.Proofs.Browser.LeftOver
import PlainSteps.Proofs.Pipeline.Accounting
import PlainSteps.Proofs.Pipeline.Publishing
import PlainSteps.Proofs.Validation.Agreement

/-! # Prompts that know nothing of each other

A run over prompts reads each of them outside of what catches its errors. So one that cannot be read
ends the whole run: the states of the prompts before it are lost with the report. When all can be
read there is a state for each, in order, and the report is saved once behind them.

What a state says depends on its own prompt and on the pages its sessions open. One prompt leaves to
the next the pages that are opened and, if it was lost to one of several sessions, the others, which
may go on. So a run over prompts has many courses (`Unfolds`). In each of them a state is the one
its prompt would have by itself (`Prompted.same`), aside from the times and from which of its
sessions a prompt is lost to.
-/

namespace PlainSteps

open Script

/-- A state without the times that its runs took. -/
def State.timeless (t : State) : State := { t with runs := t.runs.map Run.timeless }

theorem Script.Asks.moves {α τ : Type} {P : Request → Prop} {c : Clock}
    {answer : (q : Request) → τ → Except Fault q.Reply × τ} {x x' : Script α × τ} (hx : Asks P x.1)
    (hm : MovesAt c answer x x') : Asks P x'.1 := by
  cases hm with
  | say line next t =>
    cases hx with
    | say _ rest => exact rest
  | clock next t _ =>
    cases hx with
    | clock rest => exact rest _
  | ask q next t =>
    cases hx with
    | ask _ rest => exact rest _

namespace Validation

theorem validateRun_timeless (r : Run) : validateRun r.timeless = validateRun r := by
  by_cases hsteps : r.steps = []
  · unfold validateRun Run.timeless
    rw [hsteps]
    rfl
  · rw [validateRun_of_steps hsteps, validateRun_of_steps (mt List.map_eq_nil_iff.mp hsteps)]
    exact List.map_map

/-- Verdicts do not look at the time. -/
theorem verdicts_timeless (runs : List Run) : verdicts (runs.map Run.timeless) = verdicts runs := by
  unfold verdicts
  rw [List.flatMap_map]
  exact List.flatMap_congr fun r _ => validateRun_timeless r

end Validation

namespace Pipeline

variable {p : Pipeline} {s t t' : State}

/-! ### How a prompt ends -/

/-- How a compiled prompt ends when its sessions have an outcome. -/
def settled (s : State) (c : Compilation) : Except SessionError Session.Outcome → State
  | .error e => { s with error := some e.message }
  | .ok o => validated (executed (compiled s c) o)

/-- Outcomes that agree settle a prompt alike. -/
theorem settled_same {c : Compilation} {x y : Except SessionError Session.Outcome}
    (h : OfBoth Session.Outcome.Agrees x y) :
    (settled s c x).timeless = (settled s c y).timeless := by
  cases h with
  | error e => rfl
  | @ok o o' agrees =>
    have hverdicts : Validation.verdicts o.runs = Validation.verdicts o'.runs := by
      rw [← Validation.verdicts_timeless, agrees.runs, Validation.verdicts_timeless]
    have hstate : ∀ o : Session.Outcome, (settled s c (.ok o)).timeless =
        { compiled s c with
          runs := o.runs.map Run.timeless, executed := true, executorConfidence := o.confidence
          verdicts := Validation.verdicts o.runs, validated := true
          validatorConfidence := Validation.confidence (Validation.verdicts o.runs) } := fun _ =>
            rfl
    rw [hstate, hstate, agrees.runs, agrees.confidence, hverdicts]

section Ends

variable {σ : Type} {h : Host σ} {st st' : σ} {calls : List Request}

theorem settled_file {c : Compilation} {x : Except SessionError Session.Outcome}
    (hc : (p.compiler.compilePrompt s.input s.prompt.file).result = .ok c) :
    (settled s c x).prompt.file = s.prompt.file := by
  cases x with
  | error e => rfl
  | ok o =>
    rw [Compiler.compilePrompt_result] at hc
    obtain ⟨_, -, rfl⟩ := map_eq_ok_iff.mp hc
    rfl

end Ends

/-! ### A run over prompts -/

section Runs

variable {σ : Type} {h : Host σ} {st st' : σ} {calls : List Request} {paths : List Text}
  {states : List State} {total n : Nat}

/-- **A run over prompts is lost just when one of them cannot be read**, with the error of the first
such. -/
theorem runFrom_error_iff {e : FileError} :
    (∃ st' calls, (p.runFrom total n paths).Plays h st (.error e) st' calls) ↔
    FirstUnreadable p.files paths e := by
  induction paths generalizing st n with
  | nil =>
    refine iff_of_false ?_ not_firstUnreadable_nil
    rintro ⟨st', calls, hp⟩
    cases (plays_pure_iff.mp hp).1
  | cons path rest ih =>
    rw [firstUnreadable_cons_iff, runFrom]
    simp only [plays_tell_bind_iff]
    cases hread : p.files.readText path with
    | error d =>
      rw [start_error_iff.mpr hread]
      constructor
      · rintro ⟨st', calls, hp⟩
        cases (plays_pure_iff.mp hp).1
        exact .inl rfl
      · rintro (herror | ⟨⟨t, ht⟩, -⟩)
        · cases herror
          exact ⟨st, [], plays_pure_iff.mpr ⟨rfl, rfl, rfl⟩⟩
        · cases ht
    | ok input =>
      rw [start_ok_iff.mpr ⟨input, hread, rfl⟩]
      constructor
      · rintro ⟨st', calls, hp⟩
        obtain ⟨t, st₁, own, later, -, hlater, -⟩ := plays_bind_iff.mp hp
        obtain ⟨outcome, st₂, before, after, hrest, hlast, -⟩ := plays_bind_iff.mp hlater
        cases outcome with
        | error d =>
          cases (plays_pure_iff.mp hlast).1
          exact .inr ⟨⟨input, rfl⟩, ih.mp ⟨st₂, before, hrest⟩⟩
        | ok others => cases (plays_pure_iff.mp hlast).1
      · rintro (herror | ⟨-, hrest⟩)
        · cases herror
        · -- whatever becomes of this prompt, the rest of the run is lost
          obtain ⟨st₂, later, hp⟩ : ∃ st₂ later, (p.runFrom total (n + 1) rest).Plays h
              ((p.runPrompt (p.beginning path input)).play h st).value.2 (.error e) st₂ later :=
                ih.mpr hrest
          exact ⟨st₂, _, plays_bind_iff.mpr ⟨_, _, _, _, plays_self h _ st,
            plays_bind_iff.mpr ⟨_, st₂, later, [], hp, plays_pure_iff.mpr ⟨rfl, rfl, rfl⟩, rfl⟩,
              rfl⟩⟩

end Runs

/-! ### A run over prompts beside sessions that are left over -/

section Courses

variable {σ τ : Type} (g : Pages σ τ) (c : Clock) (p : Pipeline)

/-- How a prompt ends from the state in which it begins, behind all sessions that began before. -/
inductive Prompted (s : State) : Session.Crew τ → State → Session.Crew τ → Prop where
  | refused {crew : Session.Crew τ} {d : GenerationError}
      (refused : (p.compiler.compilePrompt s.input s.prompt.file).result = .error d) :
      Prompted s crew { s with error := some d.message } crew
  | ran {crew later : Session.Crew τ} {k : Compilation} {outcome : Except SessionError (List Run)}
      (compiles : (p.compiler.compilePrompt s.input s.prompt.file).result = .ok k)
      (sessions : Session.InBlocks g c p.session k.sequence k.prompt
        (Session.blocks s.parallel (selectBrowsers s.browsers).value) crew outcome later) :
      Prompted s crew (settled s k (outcome.map fun runs => ⟨runs, Session.confidence runs⟩)) later

/-- A course of a run over prompts: each is read and ends in some way, and at any time a session
that is left over may have a turn. A prompt that cannot be read is the end. -/
inductive Unfolds :
    List Text → Session.Crew τ → Except FileError (List State) → Session.Crew τ → Prop where
  | nil (crew : Session.Crew τ) : Unfolds [] crew (.ok []) crew
  | unreadable {path : Text} {rest : List Text} {crew : Session.Crew τ} {e : FileError}
      (unread : p.start path = .error e) : Unfolds (path :: rest) crew (.error e) crew
  | cons {path : Text} {rest : List Text} {s t : State} {crew later last : Session.Crew τ}
      {outcome : Except FileError (List State)} (begins : p.start path = .ok s)
      (prompted : Prompted g c p s crew t later) (others : Unfolds rest later outcome last) :
      Unfolds (path :: rest) crew (outcome.map (t :: ·)) last
  | turn {paths : List Text} {crew crew' last : Session.Crew τ}
      {outcome : Except FileError (List State)}
      (turn : TurnAt c g.answer crew crew') (later : Unfolds paths crew' outcome last) :
      Unfolds paths crew outcome last

/-- A prompt is lost to one of its sessions, the first of which is on the page of a number: to one
that has no result alone, whose error it keeps. -/
def LostTo (path : Text) (n : Nat) (t : State) : Prop :=
  ∃ s k e, p.start path = .ok s ∧ (p.compiler.compilePrompt s.input s.prompt.file).result = .ok k ∧
    .error e ∈ Session.aloneFrom g p.session k.sequence k.prompt n
      (selectBrowsers s.browsers).value ∧
    t = { s with error := some e.message }

variable {g c p} {paths : List Text} {crew last later : Session.Crew τ}
  {outcome : Except FileError (List State)} {states : List State}

/-- A prompt that went through has runs and no error; one that was stopped has its error and no
runs. -/
theorem Prompted.ends {path input : Text}
    (hp : Prompted g c p (p.beginning path input) crew t later) :
    t.prompt.file = path ∧ (t.error = none ∧ t.runs ≠ [] ∨ ∃ e, t.error = some e ∧
      t.runs = []) := by
  cases hp with
  | refused => exact ⟨rfl, .inr ⟨_, rfl, rfl⟩⟩
  | ran compiles sessions =>
    refine ⟨settled_file compiles, ?_⟩
    rcases sessions.alone with ⟨runs, rfl, hruns, -⟩ | ⟨e, rfl, -⟩
    · rw [Session.flatten_blocks] at hruns
      refine .inl ⟨rfl, ?_⟩
      rintro (hnil : runs = [])
      subst hnil
      exact (selectBrowsers_known _).1 hruns.symm
    · exact .inr ⟨_, rfl, rfl⟩

/-- **With the same pages ahead, a prompt ends in the same state**, aside from the times, unless it
is lost to sessions that ran side by side. -/
theorem Prompted.same {path input : Text} {crew' later' : Session.Crew τ}
    (hstart : p.start path = .ok (p.beginning path input))
    (hp : Prompted g c p (p.beginning path input) crew t later)
    (hp' : Prompted g c p (p.beginning path input) crew' t' later')
    (hsame : g.SameAhead crew.length crew'.length) :
    t'.timeless = t.timeless ∨ (p.parallel = true ∧ 1 < (selectBrowsers p.browsers).value.length) ∧
      LostTo g p path crew.length t ∧ LostTo g p path crew'.length t' := by
  cases hp with
  | refused refused =>
    cases hp' with
    | refused refused' =>
      cases refused.symm.trans refused'
      exact .inl rfl
    | ran compiles' _ => cases refused.symm.trans compiles'
  | ran compiles sessions =>
    cases hp' with
    | refused refused' => cases refused'.symm.trans compiles
    | ran compiles' sessions' =>
      cases compiles.symm.trans compiles'
      rcases sessions.same sessions' hsame with hruns | ⟨hmode, e, e', rfl, rfl, hmem, hmem'⟩
      · exact .inl (settled_same (Session.agrees_of_runs hruns.symm))
      · exact .inr ⟨hmode, ⟨_, _, e, hstart, compiles, hmem, rfl⟩, _, _, e', hstart,
          compiles, hmem', rfl⟩

/-- A run over prompts is lost just when one of them cannot be read, whatever is left over. -/
theorem Unfolds.error_iff (h : Unfolds g c p paths crew outcome last) (e : FileError) :
    outcome = .error e ↔ FirstUnreadable p.files paths e := by
  induction h with
  | nil => exact iff_of_false nofun not_firstUnreadable_nil
  | unreadable unread =>
    rw [firstUnreadable_cons_iff, start_error_iff.mp unread]
    constructor
    · rintro ⟨⟩
      exact .inl rfl
    · rintro (hread | ⟨⟨_, hread⟩, -⟩)
      · cases hread
        rfl
      · cases hread
  | @cons _ _ _ t _ _ _ outcome begins _ _ ih =>
    obtain ⟨input, hread, -⟩ := start_ok_iff.mp begins
    have hmap : outcome.map (t :: ·) = .error e ↔ outcome = .error e := by
      cases outcome with
      | error d => exact ⟨fun h => by cases h; rfl, fun h => by cases h; rfl⟩
      | ok others => exact iff_of_false nofun nofun
    rw [hmap, ih, firstUnreadable_cons_iff, hread]
    exact ⟨fun hrest => .inr ⟨⟨input, rfl⟩, hrest⟩, fun h => h.elim nofun And.right⟩
  | turn _ _ ih => exact ih

/-- A run that is not lost has a state for each prompt, in order, and each has ended. -/
theorem Unfolds.ends (h : Unfolds g c p paths crew outcome last) : ∀ states, outcome = .ok states →
    states.map (·.prompt.file) = paths ∧
      ∀ t ∈ states, t.error = none ∧ t.runs ≠ [] ∨ ∃ e, t.error = some e ∧ t.runs = [] := by
  induction h with
  | nil =>
    rintro _ ⟨⟩
    exact ⟨rfl, List.forall_mem_nil _⟩
  | unreadable => exact nofun
  | cons begins prompted _ ih =>
    rintro _ hstates
    obtain ⟨others, rfl, rfl⟩ := map_eq_ok_iff.mp hstates
    obtain ⟨input, -, rfl⟩ := start_ok_iff.mp begins
    obtain ⟨hfile, hends⟩ := prompted.ends
    obtain ⟨hfiles, hothers⟩ := ih others rfl
    exact ⟨congrArg₂ List.cons hfile hfiles, List.forall_mem_cons.mpr ⟨hends, hothers⟩⟩
  | turn _ _ ih => exact ih

/-- Up to the place of one of its prompts, a course is one of a run over the prompts before it. -/
theorem Unfolds.upTo (h : Unfolds g c p paths crew outcome last) : ∀ states, outcome = .ok states →
    ∀ (i : Nat) (path : Text) (t : State), paths[i]? = some path → states[i]? = some t →
      ∃ s before after, Unfolds g c p (paths.take i) crew (.ok (states.take i)) before ∧
        p.start path = .ok s ∧ Prompted g c p s before t after := by
  induction h with
  | nil => exact fun _ _ i path t hpath => nomatch hpath
  | unreadable => exact nofun
  | @cons path rest s t crew later last _ begins prompted _ ih =>
    rintro _ hstates i path' t' hpath ht
    obtain ⟨others, rfl, rfl⟩ := map_eq_ok_iff.mp hstates
    cases i with
    | zero =>
      cases hpath
      cases ht
      exact ⟨s, crew, later, .nil crew, begins, prompted⟩
    | succ i =>
      obtain ⟨s', before, after, hbefore, hstart, hprompted⟩ := ih others rfl i path' t' hpath ht
      exact ⟨s', before, after, .cons begins prompted hbefore, hstart, hprompted⟩
  | turn turn _ ih =>
    intro states hstates i path t hpath ht
    obtain ⟨s, before, after, hbefore, hstart, hprompted⟩ := ih states hstates i path t hpath ht
    exact ⟨s, before, after, .turn turn hbefore, hstart, hprompted⟩

/-- A run over one prompt that can be read has its state and no other. -/
theorem Unfolds.of_single {path : Text} (h : Unfolds g c p [path] crew outcome last)
    (hstart : p.start path = .ok s) :
    ∃ t before after, outcome = .ok [t] ∧ before.length = crew.length ∧
      Prompted g c p s before t after := by
  generalize hpaths : [path] = paths at h
  induction h with
  | nil => cases hpaths
  | unreadable unread =>
    cases hpaths
    cases unread.symm.trans hstart
  | cons begins prompted others =>
    cases hpaths
    cases begins.symm.trans hstart
    refine ⟨_, _, _, ?_, rfl, prompted⟩
    -- behind it there are no prompts
    rename_i outcome _
    cases outcome with
    | error e => exact absurd ((others.error_iff e).mp rfl) not_firstUnreadable_nil
    | ok states =>
      obtain ⟨hfiles, -⟩ := others.ends states rfl
      rw [List.map_eq_nil_iff.mp hfiles]
      rfl
  | turn turn _ ih =>
    obtain ⟨t, before, after, houtcome, hlength, hprompted⟩ := ih hpaths
    exact ⟨t, before, after, houtcome, hlength.trans turn.length_eq, hprompted⟩

/-- No session writes a text, also none that is left over. -/
theorem Unfolds.asks (h : Unfolds g c p paths crew outcome last)
    (hcrew : ∀ x ∈ crew, Asks (·.isWrite = false) x.1) :
    ∀ x ∈ last, Asks (·.isWrite = false) x.1 := by
  have hmoves : ∀ x x' : Script (Except SessionError Run) × τ, Asks (·.isWrite = false) x.1 →
      MovesAt c g.answer x x' → Asks (·.isWrite = false) x'.1 := fun _ _ => Asks.moves
  induction h with
  | nil => exact hcrew
  | unreadable => exact hcrew
  | cons _ prompted _ ih =>
    refine ih ?_
    cases prompted with
    | refused => exact hcrew
    | ran _ sessions =>
      exact sessions.all hmoves (fun b _ => (Session.run_alike _ _ _ b).asks) hcrew
  | turn turn _ ih => exact ih (turn.all hmoves hcrew)

/-! ### Courses that are there -/

end Courses

end Pipeline

end PlainSteps
