import PlainSteps.Proofs.Browser.EveryBrowser
import PlainSteps.Proofs.Browser.Faults
import PlainSteps.Proofs.Browser.Turns

/-! # Sessions on pages of their own

Each browser answers its own session and knows nothing of the others. Then the result of a session
is what it would be alone, aside from the time it took, in whatever order the sessions take turns,
and there is one result for each browser, in their order. That holds as long as every session ends
with a result, which it does whatever goes wrong by the browser; a fault from elsewhere, when a
browser is launched or closed, a page opened or a picture taken, leaves the whole run without any
result.
-/

namespace PlainSteps

open Script Execution

/-- Browsers that answer one session each. A launch opens the next page, and every other request is
answered by the page opened last, out of that page's own state; the time may be any. -/
structure Pages (σ τ : Type) where
  host : Host σ
  /-- The answers of a page. -/
  answer : (q : Request) → τ → Except Fault q.Reply × τ
  /-- The pages before they are opened, in the order of the launches. -/
  unopened : Nat → τ
  /-- How many pages were opened. -/
  opened : σ → Nat
  /-- The page opened last. -/
  current : σ → τ
  launch : ∀ q st, q.isLaunch = true →
    (host.answer q st).1 = (answer q (unopened (opened st))).1 ∧
      current (host.answer q st).2 = (answer q (unopened (opened st))).2 ∧
      opened (host.answer q st).2 = opened st + 1
  inside : ∀ q st, q.Inside →
    (host.answer q st).1 = (answer q (current st)).1 ∧
      current (host.answer q st).2 = (answer q (current st)).2 ∧
      opened (host.answer q st).2 = opened st

namespace Pages

variable {σ τ : Type} (g : Pages σ τ)

/-- One page by itself, with a clock that stands still. -/
def alone : Host τ := ⟨fun _ => 0, g.answer⟩

/-- The clock may show more time to go by than can be told. -/
def Late : Prop := ∃ st st', Session.seconds? (g.host.time st' - g.host.time st) = none

/-- The browsers are at a state of the page opened last, which is the page of a number. -/
structure IsAt (n : Nat) (st : σ) (t : τ) : Prop where
  current : g.current st = t
  opened : g.opened st = n

/-- While a session is open, its page answers as it would alone. -/
theorem inside_answer {n : Nat} (q : Request) (hq : q.Inside) (st : σ) (t : τ)
    (hst : g.IsAt n st t) :
    (g.host.answer q st).1 = (g.alone.answer q t).1 ∧
      g.IsAt n (g.host.answer q st).2 (g.alone.answer q t).2 := by
  obtain ⟨rfl, hopened⟩ := hst
  obtain ⟨hsame, hnext, hkept⟩ := g.inside q st hq
  exact ⟨hsame, hnext, hkept.trans hopened⟩

/-- Pages put side by side, with any clock: the state holds how many were opened, and the one opened
last. -/
def sideBySide (time : Nat × τ → Int) (answer : (q : Request) → τ → Except Fault q.Reply × τ)
    (unopened : Nat → τ) : Pages (Nat × τ) τ where
  host :=
    { time
      answer := fun q st =>
        let n := if q.isLaunch then st.1 + 1 else st.1
        let (reply, page) := answer q (if q.isLaunch then unopened st.1 else st.2)
        (reply, (n, page)) }
  answer := answer
  unopened := unopened
  opened := Prod.fst
  current := Prod.snd
  launch q st hq := by
    dsimp only
    rw [hq]
    exact ⟨rfl, rfl, rfl⟩
  inside q st hq := by
    dsimp only
    rw [hq]
    exact ⟨rfl, rfl, rfl⟩

end Pages

namespace Session

/-! ### One session -/

/-- The same outcome as far as it is looked at, unless it may be late and the first says that. -/
def AgreesOn {α β : Type} (late : Prop) (view : α → β) (x y : Except SessionError α) : Prop :=
  late ∧ x = .error .duration ∨ x.map view = y.map view

section Alone

variable {σ τ : Type} (g : Pages σ τ) (s : Setting) (seq : Sequence) (prompt : Prompt)

/-- What a session on the page of a number ends in when it is by itself. -/
def aloneOn (i : Nat) (browser : Text) : Except SessionError Run :=
  ((run s seq prompt browser).play g.alone (g.unopened i)).value.1

/-- Alone, a session has no result only for a fault that is not of its browser. -/
theorem aloneOn_error_iff {i : Nat} {browser : Text} {e : SessionError} :
    aloneOn g s seq prompt i browser = .error e ↔
      ∃ f, e = .fault f ∧ f.isBrowser = false ∧ Fails g.alone s seq browser (g.unopened i) f := by
  have hplays := plays_self g.alone (run s seq prompt browser) (g.unopened i)
  constructor
  · intro halone
    rw [show ((run s seq prompt browser).play g.alone (g.unopened i)).value.1 =
      .error e from halone] at hplays
    rcases run_error_iff.mp hplays with ⟨f, rfl, hforeign, hsteps⟩ | ⟨-, hlong, -⟩
    · exact ⟨f, rfl, hforeign, steps_error_iff.mp ⟨_, _, hsteps⟩⟩
    · -- a clock that stands still shows no time at all
      have hzero : seconds? 0 = some "0.0".toList := by decide +kernel
      rw [show g.alone.time _ - g.alone.time _ = 0 from rfl, hzero] at hlong
      cases hlong
  · rintro ⟨f, rfl, hforeign, hfails⟩
    obtain ⟨st', calls, hsteps⟩ := steps_error_iff.mpr hfails
    have herror : (run s seq prompt browser).Plays g.alone (g.unopened i)
        (.error (.fault f)) st' calls :=
      run_error_iff.mpr (.inl ⟨f, rfl, hforeign, hsteps⟩)
    exact (hplays.unique herror).1

/-- Alone there is no time that is too long. -/
theorem aloneOn_ne_duration (i : Nat) (browser : Text) :
    aloneOn g s seq prompt i browser ≠ .error .duration := by
  intro hlong
  obtain ⟨f, hf, -⟩ := (aloneOn_error_iff g s seq prompt).mp hlong
  cases hf

/-- The name of its browser stands in every result. -/
theorem aloneOn_browser {i : Nat} {browser : Text} {r : Run}
    (h : aloneOn g s seq prompt i browser = .ok r) :
    r.browser = browser := by
  have hplays := plays_self g.alone (run s seq prompt browser) (g.unopened i)
  rw [show ((run s seq prompt browser).play g.alone (g.unopened i)).value.1 = .ok r from h]
    at hplays
  rcases run_plays hplays with ⟨f, duration, -, -, rfl⟩ | ⟨results, duration, -, rfl⟩
  all_goals rfl

/-- A session behind its launch. -/
def launched (browser : Text) (start : Int) (reply : Except Fault Unit) :
    Script (Except SessionError Run) := do
  let outcome ← (ExceptT.mk (pure reply) >>= fun _ =>
    inside s seq browser : ExceptT Fault Script _).run
  conclude prompt browser start outcome

theorem run_play (h : Host σ) (browser : Text) (st : σ) :
    ((run s seq prompt browser).play h st).value =
      ((launched s seq prompt browser (h.time st) (h.answer (opening s browser) st).1).play h
        (h.answer (opening s browser) st).2).value := rfl

theorem launched_alike (browser : Text) (start start' : Int) (reply : Except Fault Unit) :
    Alike Request.OnPage SameOutcome (launched s seq prompt browser start reply)
      (launched s seq prompt browser start' reply) := by
  have hinside : Alike Request.OnPage (OfBoth SameSteps)
      (ExceptT.mk (pure reply) >>= fun _ => inside s seq browser : ExceptT Fault Script _).run
      (ExceptT.mk (pure reply) >>= fun _ => inside s seq browser : ExceptT Fault Script _).run :=
    Steady.run_bind_alike (steady_pure reply) fun _ => inside_alike
  exact Alike.bind hinside fun _ _ => conclude_alike

/-- **A session ends as it would alone**, aside from the time, and has opened one page. -/
theorem run_agrees (browser : Text) (st : σ) :
    AgreesOn g.Late Run.timeless ((run s seq prompt browser).play g.host st).value.1
        (aloneOn g s seq prompt (g.opened st) browser) ∧
      g.opened ((run s seq prompt browser).play g.host st).value.2 = g.opened st + 1 := by
  obtain ⟨hreply, hcurrent, hopened⟩ := g.launch (opening s browser) st rfl
  have hstart : g.IsAt (g.opened st + 1) (g.host.answer (opening s browser) st).2
      (g.current (g.host.answer (opening s browser) st).2) := ⟨rfl, hopened⟩
  have hends := (launched_alike s seq prompt browser (g.host.time st) 0
    (g.host.answer (opening s browser) st).1).play (fun q hq => g.inside_answer q hq.1) hstart
  have halone : aloneOn g s seq prompt (g.opened st) browser =
      ((launched s seq prompt browser 0 (g.host.answer (opening s browser) st).1).play g.alone
        (g.current (g.host.answer (opening s browser) st).2)).value.1 := by
    rw [hreply, hcurrent]
    rfl
  rw [← run_play, ← halone] at hends
  refine ⟨?_, hends.2.opened⟩
  rcases hends.1 with hlong | hlong | hsame
  · have hplays := plays_self g.host (run s seq prompt browser) st
    rw [hlong] at hplays
    rcases run_error_iff.mp hplays with ⟨f, hf, -⟩ | ⟨-, hnone, -⟩
    · cases hf
    · exact .inl ⟨⟨_, _, hnone⟩, hlong⟩
  · exact absurd hlong (aloneOn_ne_duration g s seq prompt _ browser)
  · exact .inr hsame

/-- What the sessions of browsers end in when each is by itself, the first on the page of a
number. -/
def aloneFrom (n : Nat) (browsers : List Text) : List (Except SessionError Run) :=
  (browsers.zipIdx n).map fun p => aloneOn g s seq prompt p.2 p.1

@[simp] theorem aloneFrom_cons (n : Nat) (b : Text) (rest : List Text) :
    aloneFrom g s seq prompt n (b :: rest) = aloneOn g s seq prompt n b ::
      aloneFrom g s seq prompt (n + 1) rest := rfl

theorem aloneFrom_getElem? (n i : Nat) (browsers : List Text) :
    (aloneFrom g s seq prompt n browsers)[i]? =
      browsers[i]?.map (aloneOn g s seq prompt (n + i)) := by
  rw [aloneFrom, List.getElem?_map, List.getElem?_zipIdx, Option.map_map]
  rfl

theorem mem_aloneFrom_iff {n : Nat} {browsers : List Text} {x : Except SessionError Run} :
    x ∈ aloneFrom g s seq prompt n browsers ↔
      ∃ (i : Nat) (b : Text), browsers[i]? = some b ∧ aloneOn g s seq prompt (n + i) b = x := by
  simp only [List.mem_iff_getElem?, aloneFrom_getElem?, Option.map_eq_some_iff]

/-! ### Sessions that take turns -/

/-- The sessions of browsers before their first moves, the first on the page of a number. -/
def crewFrom (n : Nat) (browsers : List Text) : List (Script (Except SessionError Run) × τ) :=
  (browsers.zipIdx n).map fun p => (run s seq prompt p.1, g.unopened p.2)

/-- Results that are those of the sessions alone, aside from the time: one for each browser, in
order, the first on the page of a number. -/
structure EachAlone (n : Nat) (browsers : List Text) (runs : List Run) : Prop where
  browser : runs.map Run.browser = browsers
  alone : (runs.map fun r => Except.ok r.timeless) =
    (aloneFrom g s seq prompt n browsers).map (·.map Run.timeless)

/-- A session is alike to itself but for the time, and writes no text to a file. -/
theorem run_alike (browser : Text) :
    Alike (·.isWrite = false) SameOutcome (run s seq prompt browser) (run s seq prompt browser) :=
  alike_tell_bind (alike_now_bind fun start start' =>
    .ask rfl fun reply => (launched_alike s seq prompt browser start start' reply).mono fun _ hq =>
      hq.2)

/-- At first every session is on course to what it ends in alone. -/
theorem crewFrom_toward (n : Nat) (browsers : List Text) :
    List.Forall₂ (Toward g.answer SameOutcome) (aloneFrom g s seq prompt n browsers)
      (crewFrom g s seq prompt n browsers) := by
  induction browsers generalizing n with
  | nil => exact .nil
  | cons b rest ih =>
    exact .cons ⟨_, (run_alike s seq prompt b).mono fun _ _ => trivial, rfl⟩ (ih (n + 1))

theorem crewFrom_going (n : Nat) (browsers : List Text) :
    Going (crewFrom g s seq prompt n browsers) := by
  intro e t hmem
  obtain ⟨p, -, hp⟩ := List.mem_map.mp hmem
  cases hp

theorem EachAlone.of_forall₂ {n : Nat} {browsers : List Text} {runs : List Run}
    (h : List.Forall₂ (fun x r => SameOutcome (.ok r) x)
      (aloneFrom g s seq prompt n browsers) runs) :
    EachAlone g s seq prompt n browsers runs := by
  induction browsers generalizing n runs with
  | nil =>
    cases h
    exact ⟨rfl, rfl⟩
  | cons b rest ih =>
    obtain ⟨r, later, hr, hlater, rfl⟩ := List.forall₂_cons_left_iff.mp h
    obtain ⟨hbrowsers, halone⟩ := ih hlater
    have hsame : Except.ok r.timeless = (aloneOn g s seq prompt n b).map Run.timeless := by
      rcases hr with hlong | hlong | hsame
      · cases hlong
      · exact absurd hlong (aloneOn_ne_duration g s seq prompt n b)
      · exact hsame
    obtain ⟨r', hr', htimeless⟩ := map_eq_ok_iff.mp hsame.symm
    have hbrowser : r.browser = r'.browser := (congrArg Run.browser htimeless.symm :)
    refine ⟨congrArg₂ List.cons (hbrowser.trans (aloneOn_browser g s seq prompt hr')) hbrowsers, ?_⟩
    exact congrArg₂ List.cons hsame halone

/-- Where all have results, each has one alone. -/
theorem EachAlone.isOk {n : Nat} {browsers : List Text} {runs : List Run}
    (h : EachAlone g s seq prompt n browsers runs) :
    ∀ x ∈ aloneFrom g s seq prompt n browsers, ∃ r, x = .ok r := by
  intro x hx
  have hmem : x.map Run.timeless ∈ runs.map fun r => Except.ok r.timeless :=
    h.alone ▸ List.mem_map_of_mem hx
  obtain ⟨r, -, hr⟩ := List.mem_map.mp hmem
  obtain ⟨r', hr', -⟩ := map_eq_ok_iff.mp hr.symm
  exact ⟨r', hr'⟩

/-- **In whatever order sessions take turns**, each has the result it would have alone, or one of
them has none alone. -/
theorem Gathers.alone {n : Nat} {browsers : List Text} {outcome : Except SessionError (List Run)}
    (h : Gathers g.answer (crewFrom g s seq prompt n browsers) outcome) :
    (∃ runs, outcome = .ok runs ∧ EachAlone g s seq prompt n browsers runs) ∨
      ∃ e, outcome = .error e ∧
      (e = .duration ∨ .error e ∈ aloneFrom g s seq prompt n browsers) := by
  rcases h.ends (crewFrom_toward g s seq prompt n browsers) with ⟨runs, rfl, hruns⟩ |
    ⟨e, rfl, x, hx, he⟩
  · exact .inl ⟨runs, rfl, .of_forall₂ g s seq prompt hruns⟩
  · refine .inr ⟨e, rfl, ?_⟩
    rcases he with hlong | rfl | hsame
    · cases hlong
      exact .inl rfl
    · obtain ⟨i, b, -, hlong⟩ := (mem_aloneFrom_iff g s seq prompt).mp hx
      exact absurd hlong (aloneOn_ne_duration g s seq prompt (n + i) b)
    · cases x with
      | error d =>
        cases hsame
        exact .inr hx
      | ok r => cases hsame

/-- A session that is played moves to its end. -/
theorem run_moves
    {M : Script (Except SessionError Run) × τ → Script (Except SessionError Run) × τ → Prop}
    (hM : Follows g.host g.answer M) (browser : Text) (st : σ) :
    Relation.ReflTransGen M (run s seq prompt browser, g.unopened (g.opened st))
      (.done ((run s seq prompt browser).play g.host st).value.1,
        g.current ((run s seq prompt browser).play g.host st).value.2) := by
  obtain ⟨hreply, hcurrent, -⟩ := g.launch (opening s browser) st rfl
  have hbehind := (launched_alike s seq prompt browser (g.host.time st) 0
    (g.host.answer (opening s browser) st).1).movesTo hM
      (fun q hq st => ⟨(g.inside q st hq.1).1, (g.inside q st hq.1).2.1⟩)
        (g.host.answer (opening s browser) st).2
  rw [← run_play, hreply, hcurrent] at hbehind
  exact .head (hM.say _ _ _) (.head (hM.clock _ _ st) (.head (hM.ask _ _ _) hbehind))

end Alone

/-! ### All sessions -/

theorem collect_cons (x : Except SessionError Run) (rest : List (Except SessionError Run)) :
    collect (x :: rest) = x.bind fun r => (collect rest).map (r :: ·) := by
  rw [collect]
  cases x with
  | error e => rfl
  | ok r => cases collect rest <;> rfl

/-- What is collected is the first error. -/
theorem collect_error_iff {xs : List (Except SessionError Run)} {e : SessionError} :
    collect xs = .error e ↔
      ∃ i : Nat, xs[i]? = some (.error e) ∧
        ∀ (j : Nat) (x : Except SessionError Run), j < i → xs[j]? = some x → ∃ r, x = .ok r := by
  induction xs with
  | nil => exact iff_of_false nofun (by rintro ⟨i, hi, -⟩; cases hi)
  | cons x rest ih =>
    rw [collect_cons]
    cases x with
    | error d =>
      constructor
      · intro h
        cases h
        exact ⟨0, rfl, fun j x hj => absurd hj (Nat.not_lt_zero j)⟩
      · rintro ⟨i, hi, hbefore⟩
        cases i with
        | zero => cases hi; rfl
        | succ i =>
          obtain ⟨r, hr⟩ := hbefore 0 _ (Nat.succ_pos i) rfl
          cases hr
    | ok r =>
      have htail : (collect rest).map (r :: ·) = .error e ↔ collect rest = .error e := by
        cases collect rest <;> simp [Except.map]
      refine Iff.trans htail (ih.trans ?_)
      constructor
      · rintro ⟨i, hi, hbefore⟩
        refine ⟨i + 1, hi, fun j x hj hx => ?_⟩
        cases j with
        | zero => cases hx; exact ⟨r, rfl⟩
        | succ j => exact hbefore j x (by omega) hx
      · rintro ⟨i, hi, hbefore⟩
        cases i with
        | zero => cases hi
        | succ i => exact ⟨i, hi, fun j x hj hx => hbefore (j + 1) x (by omega) hx⟩

theorem AgreesOn.cons {late : Prop} {x y : Except SessionError Run}
    {xs ys : Except SessionError (List Run)} (h : AgreesOn late Run.timeless x y)
    (hs : AgreesOn late (List.map Run.timeless) xs ys) :
    AgreesOn late (List.map Run.timeless) (x.bind fun r => xs.map (r :: ·))
      (y.bind fun r => ys.map (r :: ·)) := by
  rcases h with ⟨hlate, rfl⟩ | h
  · exact .inl ⟨hlate, rfl⟩
  · cases OfBoth.of_map_eq h with
    | error e => exact .inr rfl
    | @ok r r' hr =>
      rcases hs with ⟨hlate, rfl⟩ | hs
      · exact .inl ⟨hlate, rfl⟩
      · right
        cases OfBoth.of_map_eq hs with
        | error e => rfl
        | ok hothers =>
          refine congrArg Except.ok ?_
          rw [List.map_cons, List.map_cons, hr, hothers]

section Modes

variable {σ τ : Type} (g : Pages σ τ) {s : Setting} {seq : Sequence} {prompt : Prompt}

/-- A way to go through sessions that hands on their results in order, or the first error. -/
structure Collects (h : Host σ) (session : Text → Script (Except SessionError Run))
    (mode : List Text → Script (Except SessionError (List Run))) : Prop where
  nil : ∀ st, ((mode []).play h st).value.1 = .ok []
  cons : ∀ b rest st, ((mode (b :: rest)).play h st).value.1 =
    ((session b).play h st).value.1.bind fun r =>
      ((mode rest).play h ((session b).play h st).value.2).value.1.map (r :: ·)

theorem inTurn_collects (h : Host σ) (session : Text → Script (Except SessionError Run)) :
    Collects h session (inTurn session) where
  nil st := rfl
  cons b rest st := by
    rw [inTurn, value_play_seq]
    cases ((session b).play h st).value.1 with
    | error e => rfl
    | ok r =>
      dsimp only
      rw [value_play_seq]
      rfl

theorem collect_allOf_collects (h : Host σ) (session : Text → Script (Except SessionError Run)) :
    Collects h session fun browsers => collect <$> allOf session browsers where
  nil st := rfl
  cons b rest st := by
    rw [allOf]
    simp only [map_eq_pure_bind, bind_assoc, pure_bind]
    rw [value_play_seq, value_play_seq, value_play_seq]
    exact collect_cons _ _

theorem Collects.agrees {mode : List Text → Script (Except SessionError (List Run))}
    (hmode : Collects g.host (run s seq prompt) mode) (browsers : List Text) (st : σ) :
    AgreesOn g.Late (List.map Run.timeless) ((mode browsers).play g.host st).value.1
      (collect (aloneFrom g s seq prompt (g.opened st) browsers)) := by
  induction browsers generalizing st with
  | nil => exact .inr (by rw [hmode.nil]; rfl)
  | cons b rest ih =>
    obtain ⟨hfirst, hopened⟩ := run_agrees g s seq prompt b st
    rw [hmode.cons, aloneFrom_cons, collect_cons, ← hopened]
    exact hfirst.cons (ih _)

/-- To go through sessions one after the other is an order in which they take turns. -/
theorem Collects.gathers {mode : List Text → Script (Except SessionError (List Run))}
    (hmode : Collects g.host (run s seq prompt) mode) (browsers : List Text) (st : σ) :
    Gathers g.answer (crewFrom g s seq prompt (g.opened st) browsers)
      ((mode browsers).play g.host st).value.1 := by
  induction browsers generalizing st with
  | nil => exact hmode.nil st ▸ .results rfl
  | cons b rest ih =>
    have hmoves := run_moves g s seq prompt (moves_follows g.host) b st
    obtain ⟨-, hopened⟩ := run_agrees g s seq prompt b st
    have hlater := ih ((run s seq prompt b).play g.host st).value.2
    rw [hopened] at hlater
    refine .of_moves hmoves (crewFrom_going g s seq prompt (g.opened st + 1) rest) ?_
    rw [hmode.cons]
    cases ((run s seq prompt b).play g.host st).value.1 with
    | error e => exact .error (.head _)
    | ok r => exact hlater.behind r _

/-- All browsers come to the results of their sessions, with the confidence in these. -/
theorem runAll_value (h : Host σ) (requested : List Text) (parallel : Bool) (st : σ) :
    ((runAll s seq prompt requested parallel).play h st).value =
      Prod.map (Except.map fun runs => Outcome.mk runs (confidence runs)) id
        (if parallel && 1 < (selectBrowsers requested).value.length then
          ((collect <$> allOf (run s seq prompt) (selectBrowsers requested).value).play h st).value
        else ((inTurn (run s seq prompt) (selectBrowsers requested).value).play h st).value) := by
  have htelling : ∀ (lines : List Text) (x : Script (Except SessionError Outcome)),
      ((telling lines x).play h st).value = (x.play h st).value := by
    intro lines x
    induction lines with
    | nil => rfl
    | cons line rest ih => exact ih
  unfold runAll
  dsimp only
  rw [htelling, value_play_seq]
  split
  · rw [value_play_seq]
    rfl
  · rw [value_play_seq]
    rfl

theorem map_outcome_runs (runs : Except SessionError (List Run)) :
    (runs.map fun runs => Outcome.mk runs (confidence runs)).map (·.runs) = runs := by
  cases runs <;> rfl

/-- Whether in turn or side by side, the results of all browsers are collected from their
sessions. -/
theorem runAll_collects (h : Host σ) (requested : List Text) (parallel : Bool) (st : σ) :
    ∃ mode, Collects h (run s seq prompt) mode ∧
      ((runAll s seq prompt requested parallel).play h st).value.1.map (·.runs) =
        ((mode (selectBrowsers requested).value).play h st).value.1 := by
  rw [runAll_value]
  split
  · exact ⟨_, collect_allOf_collects h _, map_outcome_runs _⟩
  · exact ⟨_, inTurn_collects h _, map_outcome_runs _⟩

/-- Whether in turn or side by side, all browsers come to what their sessions come to in some order
of turns. -/
theorem runAll_gathers (s : Setting) (seq : Sequence) (prompt : Prompt) (requested : List Text)
    (parallel : Bool) (st : σ) :
    Gathers g.answer (crewFrom g s seq prompt (g.opened st) (selectBrowsers requested).value)
      (((runAll s seq prompt requested parallel).play g.host st).value.1.map (·.runs)) := by
  obtain ⟨mode, hmode, hruns⟩ : ∃ mode, Collects g.host (run s seq prompt) mode ∧ _ :=
    runAll_collects g.host requested parallel st
  exact hruns ▸ hmode.gathers g _ st

/-- All sessions together agree with the first error, or all results, of each alone. -/
theorem runAll_agrees (s : Setting) (seq : Sequence) (prompt : Prompt) (requested : List Text)
    (parallel : Bool) (st : σ) :
    AgreesOn g.Late (List.map Run.timeless)
      (((runAll s seq prompt requested parallel).play g.host st).value.1.map (·.runs))
      (collect (aloneFrom g s seq prompt (g.opened st) (selectBrowsers requested).value)) := by
  obtain ⟨mode, hmode, hruns⟩ : ∃ mode, Collects g.host (run s seq prompt) mode ∧ _ :=
    runAll_collects g.host requested parallel st
  exact hruns ▸ hmode.agrees g _ st

/-- The first error that is collected is that of the first session without a result. -/
theorem collect_aloneFrom_error_iff {n : Nat} {browsers : List Text} {e : SessionError} :
    collect (aloneFrom g s seq prompt n browsers) = .error e ↔
      ∃ (i : Nat) (b : Text), browsers[i]? = some b ∧ aloneOn g s seq prompt (n + i) b = .error e ∧
        ∀ (j : Nat) (b' : Text), j < i → browsers[j]? = some b' →
        ∃ r, aloneOn g s seq prompt (n + j) b' = .ok r := by
  simp only [collect_error_iff, aloneFrom_getElem?, Option.map_eq_some_iff]
  constructor
  · rintro ⟨i, ⟨b, hb, herror⟩, hbefore⟩
    exact ⟨i, b, hb, herror, fun j b' hj hb' => hbefore j _ hj ⟨b', hb', rfl⟩⟩
  · rintro ⟨i, b, hb, herror, hbefore⟩
    refine ⟨i, ⟨b, hb, herror⟩, ?_⟩
    rintro j x hj ⟨b', hb', rfl⟩
    exact hbefore j b' hj hb'

/-- Results are those of the sessions alone. -/
theorem runAll_ok {requested : List Text} {parallel : Bool} {st : σ} {o : Outcome}
    (ho : ((runAll s seq prompt requested parallel).play g.host st).value.1 = .ok o) :
    EachAlone g s seq prompt (g.opened st) (selectBrowsers requested).value o.runs := by
  have hgathers := runAll_gathers g s seq prompt requested parallel st
  rw [ho] at hgathers
  rcases hgathers.alone with ⟨runs, hruns, halone⟩ | ⟨e, he, -⟩
  · cases hruns
    exact halone
  · cases he

/-- Without results there is the error of the first session that has none alone. -/
theorem runAll_error_iff {requested : List Text} {parallel : Bool} {st : σ} {e : SessionError}
    (hlate : ¬ (g.Late ∧ ((runAll s seq prompt requested parallel).play g.host st).value.1 =
      .error .duration)) :
    ((runAll s seq prompt requested parallel).play g.host st).value.1 = .error e ↔
      ∃ (i : Nat) (b : Text), (selectBrowsers requested).value[i]? = some b ∧
        aloneOn g s seq prompt (g.opened st + i) b = .error e ∧
        ∀ (j : Nat) (b' : Text), j < i → (selectBrowsers requested).value[j]? = some b' →
          ∃ r, aloneOn g s seq prompt (g.opened st + j) b' = .ok r := by
  rw [← collect_aloneFrom_error_iff]
  have hagrees := runAll_agrees g s seq prompt requested parallel st
  generalize ((runAll s seq prompt requested parallel).play g.host st).value.1 = outcome
    at hagrees hlate ⊢
  generalize collect (aloneFrom g s seq prompt (g.opened st) (selectBrowsers requested).value) =
    collected at hagrees ⊢
  -- apart from a session that is late, both ways end in the same error or both in none
  rcases hagrees with ⟨hclock, hlong⟩ | hsame
  · cases outcome with
    | error d =>
      cases hlong
      exact absurd ⟨hclock, rfl⟩ hlate
    | ok o => cases hlong
  · cases outcome with
    | error d =>
      cases OfBoth.of_map_eq hsame with
      | error d => simp only [Except.error.injEq]
    | ok o =>
      cases OfBoth.of_map_eq hsame with
      | ok _ => exact iff_of_false nofun nofun

/-- There are no results just when a session has none alone, and the error is that of such a
session. -/
theorem runAll_fails_iff {requested : List Text} {parallel : Bool} {st : σ}
    (hlate : ¬ (g.Late ∧ ((runAll s seq prompt requested parallel).play g.host st).value.1 =
      .error .duration)) :
    ((∃ e, ((runAll s seq prompt requested parallel).play g.host st).value.1 = .error e) ↔
      ∃ e, .error e ∈ aloneFrom g s seq prompt (g.opened st) (selectBrowsers requested).value) ∧
    ∀ e, ((runAll s seq prompt requested parallel).play g.host st).value.1 = .error e →
      .error e ∈ aloneFrom g s seq prompt (g.opened st) (selectBrowsers requested).value := by
  have hmem : ∀ e, ((runAll s seq prompt requested parallel).play g.host st).value.1 = .error e →
      .error e ∈ aloneFrom g s seq prompt (g.opened st) (selectBrowsers requested).value := by
    intro e he
    obtain ⟨i, b, hb, herror, -⟩ := (runAll_error_iff g hlate).mp he
    exact (mem_aloneFrom_iff g s seq prompt).mpr ⟨i, b, hb, herror⟩
  refine ⟨⟨fun ⟨e, he⟩ => ⟨e, hmem e he⟩, fun ⟨e, he⟩ => ?_⟩, hmem⟩
  cases houtcome : ((runAll s seq prompt requested parallel).play g.host st).value.1 with
  | error d => exact ⟨d, rfl⟩
  | ok o =>
    obtain ⟨r, hr⟩ := (runAll_ok g houtcome).isOk g s seq prompt _ he
    cases hr

/-- Results of sessions on the same page differ in the time they took at most. -/
theorem EachAlone.same {σ' : Type} {g' : Pages σ' τ} {n n' i : Nat} {browsers : List Text}
    {runs runs' : List Run} (h : EachAlone g s seq prompt n browsers runs)
    (h' : EachAlone g' s seq prompt n' browsers runs') (hanswer : g'.answer = g.answer)
    (hpage : g'.unopened (n' + i) = g.unopened (n + i)) :
    runs[i]?.map Run.timeless = runs'[i]?.map Run.timeless := by
  have hhost : g'.alone = g.alone := congrArg (Host.mk fun _ => 0) hanswer
  have halone : aloneOn g' s seq prompt (n' + i) = aloneOn g s seq prompt (n + i) := by
    funext b
    rw [aloneOn, aloneOn, hhost, hpage]
  have hplace := congrArg (·[i]?) h.alone
  have hplace' := congrArg (·[i]?) h'.alone
  simp only [List.getElem?_map, aloneFrom_getElem?, halone] at hplace hplace'
  have hok := hplace.trans hplace'.symm
  cases hr : runs[i]? with
  | none =>
    cases hr' : runs'[i]? with
    | none => rfl
    | some r' => rw [hr, hr'] at hok; cases hok
  | some r =>
    cases hr' : runs'[i]? with
    | none => rw [hr, hr'] at hok; cases hok
    | some r' =>
      rw [hr, hr'] at hok
      exact congrArg some (Except.ok.inj (Option.some.inj hok))

/-- **A session has the result it would have alone, if all sessions end with one.** On pages that
know nothing of each other, and in whatever order the sessions take turns: there is one result for
each browser, in order, and each is that of its session alone, aside from the time; or there is
none, and one of the sessions has none alone (or took a time too long to be told). To run them in
turn or side by side is such an order. It ends without results just when a session has none alone,
with the error of such a session, and in turn with that of the first one; and a session has none
alone for a fault not of its browser, at its launch, its page, a picture or its end. What the other
pages do, and whether they are visited in turn or side by side, makes no difference to a result. -/
theorem runAll_eq_alone (g : Pages σ τ) (s : Setting) (seq : Sequence) (prompt : Prompt)
    (requested : List Text) (parallel : Bool) (st : σ) :
    (∀ n browsers outcome, Gathers g.answer (crewFrom g s seq prompt n browsers) outcome →
      (∃ runs, outcome = .ok runs ∧ EachAlone g s seq prompt n browsers runs) ∨
      ∃ e, outcome = .error e ∧ (e = .duration ∨ .error e ∈ aloneFrom g s seq prompt n browsers)) ∧
    Gathers g.answer (crewFrom g s seq prompt (g.opened st) (selectBrowsers requested).value)
      (((runAll s seq prompt requested parallel).play g.host st).value.1.map (·.runs)) ∧
    (∀ o, ((runAll s seq prompt requested parallel).play g.host st).value.1 = .ok o →
      EachAlone g s seq prompt (g.opened st) (selectBrowsers requested).value o.runs) ∧
    (¬ (g.Late ∧ ((runAll s seq prompt requested parallel).play g.host st).value.1 =
      .error .duration) →
      ((∃ e, ((runAll s seq prompt requested parallel).play g.host st).value.1 = .error e) ↔
        ∃ e, .error e ∈ aloneFrom g s seq prompt (g.opened st) (selectBrowsers requested).value) ∧
      (∀ e, ((runAll s seq prompt requested parallel).play g.host st).value.1 = .error e →
        .error e ∈ aloneFrom g s seq prompt (g.opened st) (selectBrowsers requested).value) ∧
      ((parallel && 1 < (selectBrowsers requested).value.length) = false → ∀ e,
        (((runAll s seq prompt requested parallel).play g.host st).value.1 = .error e ↔
          ∃ (i : Nat) (b : Text), (selectBrowsers requested).value[i]? = some b ∧
            aloneOn g s seq prompt (g.opened st + i) b = .error e ∧
            ∀ (j : Nat) (b' : Text), j < i → (selectBrowsers requested).value[j]? = some b' →
              ∃ r, aloneOn g s seq prompt (g.opened st + j) b' = .ok r))) ∧
    (∀ i b e, aloneOn g s seq prompt i b = .error e ↔
      ∃ f, e = .fault f ∧ f.isBrowser = false ∧ Fails g.alone s seq b (g.unopened i) f) ∧
    ∀ {σ' : Type} (g' : Pages σ' τ) (parallel' : Bool) (st' : σ') (i : Nat) (o o' : Outcome),
      g'.answer = g.answer → g'.unopened (g'.opened st' + i) = g.unopened (g.opened st + i) →
      ((runAll s seq prompt requested parallel).play g.host st).value.1 = .ok o →
      ((runAll s seq prompt requested parallel').play g'.host st').value.1 = .ok o' →
      o.runs[i]?.map Run.timeless = o'.runs[i]?.map Run.timeless := by
  refine ⟨fun n browsers outcome hgathers => hgathers.alone,
    runAll_gathers g s seq prompt requested parallel st, fun o ho => runAll_ok g ho, fun hlate =>
      ?_, fun i b e => aloneOn_error_iff g s seq prompt, ?_⟩
  · obtain ⟨hfails, hmem⟩ := runAll_fails_iff g hlate
    exact ⟨hfails, hmem, fun _ e => runAll_error_iff g hlate⟩
  intro σ' g' parallel' st' i o o' hanswer hpage ho ho'
  exact (runAll_ok g ho).same g (runAll_ok g' ho') hanswer hpage

/-- Three browsers. -/
def threeBrowsers : List Text := ["chromium", "firefox", "webkit"]

/-- Pages of which the second cannot be opened, for a reason of its browser. -/
def refusedPages : Pages (Nat × Stage) Stage :=
  .sideBySide (fun st => st.2.clock) Stage.answer fun i =>
    if i = 1 then { sessions := [("firefox", { launchFault := some (.browser "no display") })] }
      else {}

/-- The session that is refused has a result without success, and the others have theirs. -/
theorem runAll_eq_alone_refused :
    ∃ o,
      ((runAll pictured ⟨[Action.wait 5 "Wait"]⟩ {} threeBrowsers true).play refusedPages.host
        (0, {})).value.1 =
        .ok o ∧
      EachAlone refusedPages pictured ⟨[Action.wait 5 "Wait"]⟩ {} 0 threeBrowsers o.runs ∧
      o.runs.map (·.success) = [true, false, true] := by
  obtain ⟨-, -, hok, -⟩ :=
    runAll_eq_alone refusedPages pictured ⟨[Action.wait 5 "Wait"]⟩ {} threeBrowsers true (0, {})
  exact ⟨_, rfl, hok _ rfl, rfl⟩

/-- A launch that fails by something else than the browser leaves none of the browsers a result. -/
theorem runAll_unlaunched :
    ((runAll pictured ⟨[Action.wait 5 "Wait"]⟩ {} threeBrowsers false).play Stage.host
        { sessions := [("firefox", { launchFault := some (.other "boom") })] }).value.1 =
      .error (.fault (.other "boom")) ∧
    ((runAll pictured ⟨[Action.wait 5 "Wait"]⟩ {} threeBrowsers true).play Stage.host
        { sessions := [("firefox", { launchFault := some (.other "boom") })] }).value.1 =
      .error (.fault (.other "boom")) := ⟨rfl, rfl⟩

end Modes

end Session

end PlainSteps
