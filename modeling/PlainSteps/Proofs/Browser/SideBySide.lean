import Mathlib.Data.Set.List
import PlainSteps.Proofs.Browser.Independence
import PlainSteps.Proofs.Number.Rounding

/-! # Side by side or one after the other

Sessions that run side by side take turns, and nobody says in which order. Two things drive the
agreement with sessions that run one after the other. Every session keeps on its course to what it
ends in alone, whoever's turn it is; and a script is a finite tree, so that turns run out, and those
that are left without one have all ended. What the clock shows is any of its times at every reading;
it is only asked not to show two that are so far apart that no number can tell the time between
them.
-/

namespace PlainSteps

/-! ### Times that can be told -/

namespace Binary64

theorem ofRatio_isInfinite_iff (negative : Bool) {num den : Nat} (hden : 0 < den) :
    (∃ s, ofRatio negative num den = infinite s) ↔
    (((2 ^ 53 : Nat) - 1 / 2) * 2 ^ maxExponent : ℚ) ≤ num / den := by
  have hsign : (∃ s, ofRatio negative num den = infinite s) ↔
      ofRatio false num den = infinite false := by
    rcases Nat.eq_zero_or_pos num with rfl | hnum
    · exact iff_of_false (by rintro ⟨s, hs⟩; cases hs) nofun
    · rw [ofRatio_eq_ofSteps negative hnum, ofRatio_eq_ofSteps false hnum]
      unfold ofSteps
      split
      split
      · exact iff_of_true ⟨negative, rfl⟩ rfl
      · exact iff_of_false (by rintro ⟨s, hs⟩; cases hs) nofun
  have hrange : ofRatio false num den = infinite false ↔
      Reaches tooLarge (ofRatio false num den) := by
    rcases ofRatio_inRange num hden with hx | ⟨m, e, hx, hm, he⟩
    · exact iff_of_true hx (hx ▸ rfl)
    · rw [hx]
      refine iff_of_false nofun ?_
      simp only [Reaches, Bool.false_eq_true, if_false, not_le]
      exact lt_tooLarge hm he
  rw [hsign, hrange, tooLarge_eq_mul,
    reaches_ofRatio_iff hden (by decide) (by decide) le_rfl (by decide) le_rfl]

end Binary64

namespace Session

/-- The least number of milliseconds whose seconds are too many for a number of double precision. -/
def endless : Nat := (2 ^ 54 - 1) * 2 ^ 970 * 1000

theorem seconds?_eq_none_iff (ms : Int) : seconds? ms = none ↔ endless ≤ ms.natAbs := by
  have hinfinite : seconds? ms = none ↔ ∃ s, Binary64.ofRatio (ms < 0) ms.natAbs 1000 =
      .infinite s := by
    unfold seconds?
    cases hx : Binary64.ofRatio (ms < 0) ms.natAbs 1000 with
    | infinite s => simp
    | finite s m e => simp
    | nan => simp
  have hsteps : ∀ step : Nat, (((2 ^ 53 : Nat) - 1 / 2) * (2 * step) : ℚ) * (1000 : Nat) =
      ((2 ^ 54 - 1) * step * 1000 : Nat) := by
    intro step
    push_cast
    ring
  have hscale : (2 : ℚ) ^ Binary64.maxExponent = 2 * (2 ^ 970 : Nat) := by
    rw [Nat.cast_pow, Nat.cast_ofNat, ← pow_succ', ← zpow_natCast]
    rfl
  rw [hinfinite, Binary64.ofRatio_isInfinite_iff _ (by decide),
    le_div_iff₀ (by norm_num), hscale, hsteps]
  exact Nat.cast_le

end Session

/-- The times of a clock, no two of which are so far apart that nothing can tell the time between
them. -/
structure Clock where
  shows : Int → Prop
  near : ∀ t t', shows t → shows t' → (t' - t).natAbs < Session.endless

/-- By such a clock no session is late. -/
theorem Clock.not_late {σ τ : Type} {g : Pages σ τ} (c : Clock)
    (hclock : ∀ st, c.shows (g.host.time st)) :
    ¬ g.Late := by
  rintro ⟨st, st', hlong⟩
  exact absurd ((Session.seconds?_eq_none_iff _).mp hlong)
    (Nat.not_le.mpr (c.near _ _ (hclock st) (hclock st')))

namespace Script

variable {α β τ : Type}

/-! ### Turns -/

/-- One move of a script on a page of its own, at a time of the clock. -/
inductive MovesAt (c : Clock) (answer : (q : Request) → τ → Except Fault q.Reply × τ) :
    Script α × τ → Script α × τ → Prop where
  | say (line : Text) (next : Script α) (t : τ) : MovesAt c answer (.say line next, t) (next, t)
  | clock (next : Int → Script α) (t : τ) {ms : Int} (shown : c.shows ms) :
      MovesAt c answer (.clock next, t) (next ms, t)
  | ask (q : Request) (next : Except Fault q.Reply → Script α) (t : τ) :
      MovesAt c answer (.ask q next, t) (next (answer q t).1, (answer q t).2)

/-- In a list of scripts, one makes a move at a time of the clock. -/
inductive TurnAt (c : Clock) (answer : (q : Request) → τ → Except Fault q.Reply × τ) :
    List (Script α × τ) → List (Script α × τ) → Prop where
  | this {x x' : Script α × τ} {rest : List (Script α × τ)} (moves : MovesAt c answer x x') :
      TurnAt c answer (x :: rest) (x' :: rest)
  | other {x : Script α × τ} {rest rest' : List (Script α × τ)}
      (turn : TurnAt c answer rest rest') :
      TurnAt c answer (x :: rest) (x :: rest')

section Turns

variable {c : Clock} {answer : (q : Request) → τ → Except Fault q.Reply × τ}
  {crew crew' : List (Script α × τ)}

theorem MovesAt.moves {x x' : Script α × τ} (h : MovesAt c answer x x') : Moves answer x x' := by
  cases h with
  | say line next t => exact .say line next t
  | clock next t shown => exact .clock next t _
  | ask q next t => exact .ask q next t

theorem TurnAt.turn (h : TurnAt c answer crew crew') : Turn answer crew crew' := by
  induction h with
  | this moves => exact .this moves.moves
  | other _ ih => exact .other ih

/-! ### Every order of turns ends -/

theorem acc_moves (x : Script α) (t : τ) :
    Acc (fun later now => Moves answer now later) (x, t) := by
  induction x generalizing t with
  | done a => exact .intro _ fun _ hm => nomatch hm
  | say line next ih =>
    refine .intro _ fun _ hm => ?_
    cases hm
    exact ih t
  | clock next ih =>
    refine .intro _ fun _ hm => ?_
    cases hm
    exact ih _ t
  | ask q next ih =>
    refine .intro _ fun _ hm => ?_
    cases hm
    exact ih _ _

/-- The turns of one script among others run out when those of the others do. -/
theorem acc_turn_cons {x : Script α × τ} (hx : Acc (fun later now => Moves answer now later) x) :
    ∀ {rest : List (Script α × τ)}, Acc (fun later now => Turn answer now later) rest →
      Acc (fun later now => Turn answer now later) (x :: rest) := by
  induction hx with
  | intro x _ ihx =>
    intro rest hrest
    induction hrest with
    | intro rest hrest ihrest =>
      refine .intro _ fun later hturn => ?_
      cases hturn with
      | this moves => exact ihx _ moves (.intro rest hrest)
      | other turn => exact ihrest _ turn

/-- **No order of turns goes on for ever.** -/
theorem acc_turn (crew : List (Script α × τ)) :
    Acc (fun later now => Turn answer now later) crew := by
  induction crew with
  | nil => exact .intro _ fun _ hturn => nomatch hturn
  | cons x rest ih => exact acc_turn_cons (acc_moves x.1 x.2) ih

theorem acc_turnAt (crew : List (Script α × τ)) :
    Acc (fun later now => TurnAt c answer now later) crew :=
  Subrelation.accessible TurnAt.turn (acc_turn crew)

theorem done_or_movesAt {ms : Int} (hms : c.shows ms) (x : Script α × τ) :
    (∃ a, x.1 = .done a) ∨ ∃ x', MovesAt c answer x x' := by
  obtain ⟨script, t⟩ := x
  cases script with
  | done a => exact .inl ⟨a, rfl⟩
  | say line next => exact .inr ⟨_, .say line next t⟩
  | clock next => exact .inr ⟨_, .clock next t hms⟩
  | ask q next => exact .inr ⟨_, .ask q next t⟩

/-- As long as one of them has not ended, scripts have a turn. -/
theorem done_or_turnAt {ms : Int} (hms : c.shows ms) (crew : List (Script α × τ)) :
    (∀ x ∈ crew, ∃ a, x.1 = .done a) ∨ ∃ later, TurnAt c answer crew later := by
  induction crew with
  | nil => exact .inl nofun
  | cons x rest ih =>
    rcases done_or_movesAt hms x with hx | ⟨x', hmove⟩
    · rcases ih with hrest | ⟨later, hturn⟩
      · exact .inl (List.forall_mem_cons.mpr ⟨hx, hrest⟩)
      · exact .inr ⟨_, .other hturn⟩
    · exact .inr ⟨_, .this hmove⟩

/-! ### What every end of a script is -/

/-- Whatever is answered, and at whatever times of the clock, a script ends in a value of a kind. -/
def EndsIn (c : Clock) (E : α → Prop) : Script α → Prop
  | .done a => E a
  | .say _ next => EndsIn c E next
  | .clock next => ∀ t, c.shows t → EndsIn c E (next t)
  | .ask _ next => ∀ r, EndsIn c E (next r)

variable {E : α → Prop}

theorem endsIn_true (x : Script α) : EndsIn c (fun _ => True) x := by
  induction x with
  | done a => exact trivial
  | say line next ih => exact ih
  | clock next ih => exact fun t _ => ih t
  | ask q next ih => exact fun r => ih r

theorem EndsIn.bind {F : β → Prop} {x : Script α} {f : α → Script β} (hx : EndsIn c E x)
    (hf : ∀ a, E a → EndsIn c F (f a)) : EndsIn c F (x >>= f) := by
  induction x with
  | done a => exact hf a hx
  | say line next ih => exact ih hx
  | clock next ih => exact fun t ht => ih t (hx t ht)
  | ask q next ih => exact fun r => ih r (hx r)

theorem EndsIn.tell_bind {line : Text} {f : Unit → Script α} (h : EndsIn c E (f ())) :
    EndsIn c E (tell line >>= f) := h

theorem EndsIn.now_bind {f : Int → Script α} (h : ∀ t, c.shows t → EndsIn c E (f t)) :
    EndsIn c E (now >>= f) := h

theorem EndsIn.moves {x x' : Script α × τ} (h : EndsIn c E x.1) (hm : MovesAt c answer x x') :
    EndsIn c E x'.1 := by
  cases hm with
  | say line next t => exact h
  | clock next t shown => exact h _ shown
  | ask q next t => exact h _

/-- What moves keep of each script, turns keep of all. -/
theorem TurnAt.all {Q : Script α × τ → Prop} (hQ : ∀ x x', Q x → MovesAt c answer x x' → Q x')
    (hturn : TurnAt c answer crew crew') (h : ∀ x ∈ crew, Q x) : ∀ x ∈ crew', Q x := by
  induction hturn with
  | this moves =>
    obtain ⟨hx, hrest⟩ := List.forall_mem_cons.mp h
    exact List.forall_mem_cons.mpr ⟨hQ _ _ hx moves, hrest⟩
  | other _ ih =>
    obtain ⟨hx, hrest⟩ := List.forall_mem_cons.mp h
    exact List.forall_mem_cons.mpr ⟨hx, ih hrest⟩

theorem TurnAt.endsIn (hturn : TurnAt c answer crew crew') (h : ∀ x ∈ crew, EndsIn c E x.1) :
    ∀ x ∈ crew', EndsIn c E x.1 := hturn.all (fun _ _ => EndsIn.moves) h

end Turns

end Script

namespace Session

open Script

/-- No session is late by a clock whose times are near each other. -/
theorem run_endsIn (c : Clock) (s : Setting) (seq : Sequence) (prompt : Prompt) (browser : Text) :
    EndsIn c (· ≠ .error .duration) (run s seq prompt browser) := by
  rw [run_eq]
  refine .tell_bind (.now_bind fun start hstart => EndsIn.bind (endsIn_true _) fun outcome _ => ?_)
  unfold conclude
  cases outcome with
  | error f =>
    dsimp only
    split
    · exact .tell_bind (.now_bind fun finish _ => nofun)
    · exact nofun
  | ok results =>
    refine .now_bind fun finish hfinish => ?_
    have hnear := c.near start finish hstart hfinish
    unfold settle
    cases hseconds : seconds? (finished prompt browser (finish - start) results).duration with
    | none => exact absurd ((seconds?_eq_none_iff _).mp hseconds) (Nat.not_le.mpr hnear)
    | some seconds => exact nofun

/-! ### Agreement -/

/-- Outcomes that differ in durations at most. -/
structure Outcome.Agrees (o o' : Outcome) : Prop where
  runs : o.runs.map Run.timeless = o'.runs.map Run.timeless
  confidence : o.confidence = o'.confidence

theorem confidence_timeless (runs : List Run) :
    confidence (runs.map Run.timeless) = confidence runs := by
  unfold confidence
  rw [List.countP_map, List.length_map]
  rfl

theorem runAll_confidence {σ : Type} {h : Host σ} {s : Setting} {seq : Sequence} {prompt : Prompt}
    {requested : List Text} {parallel : Bool} {st : σ} {o : Outcome}
    (ho : ((runAll s seq prompt requested parallel).play h st).value.1 = .ok o) :
    o.confidence = confidence o.runs := by
  have hplays := plays_self h (runAll s seq prompt requested parallel) st
  rw [ho] at hplays
  obtain ⟨runs, -, rfl⟩ := runAll_ok_iff.mp hplays
  rfl

section Agreement

variable {σ τ : Type} (g : Pages σ τ) {s : Setting} {seq : Sequence} {prompt : Prompt}

/-- Alone, a session has a result just when it fails by its browser at most. -/
theorem aloneOn_ok_iff {i : Nat} {browser : Text} :
    (∃ r, aloneOn g s seq prompt i browser = .ok r) ↔
      ∀ f, Fails g.alone s seq browser (g.unopened i) f → f.isBrowser = true := by
  constructor
  · rintro ⟨r, hr⟩ f hfails
    cases hforeign : f.isBrowser with
    | true => rfl
    | false =>
      rw [(aloneOn_error_iff g s seq prompt).mpr ⟨f, rfl, hforeign, hfails⟩] at hr
      cases hr
  · intro hall
    cases hvalue : aloneOn g s seq prompt i browser with
    | ok r => exact ⟨r, rfl⟩
    | error e =>
      obtain ⟨f, -, hforeign, hfails⟩ := (aloneOn_error_iff g s seq prompt).mp hvalue
      rw [hall f hfails] at hforeign
      cases hforeign

/-- Results of the same sessions are the same, aside from the times. -/
theorem EachAlone.timeless_eq {n : Nat} {browsers : List Text} {runs runs' : List Run}
    (h : EachAlone g s seq prompt n browsers runs)
    (h' : EachAlone g s seq prompt n browsers runs') :
    runs.map Run.timeless = runs'.map Run.timeless := by
  have hok : (runs.map Run.timeless).map (Except.ok (ε := SessionError)) =
      (runs'.map Run.timeless).map Except.ok := by
    rw [List.map_map, List.map_map]
    exact h.alone.trans h'.alone.symm
  exact List.map_injective_iff.mpr (fun _ _ => Except.ok.inj) hok

/-- Results of the same sessions agree. -/
theorem EachAlone.agrees {n : Nat} {browsers : List Text} {o o' : Outcome}
    (h : EachAlone g s seq prompt n browsers o.runs)
    (h' : EachAlone g s seq prompt n browsers o'.runs) (ho : o.confidence = confidence o.runs)
    (ho' : o'.confidence = confidence o'.runs) : o.Agrees o' := by
  have hruns := h.timeless_eq g h'
  refine ⟨hruns, ?_⟩
  rw [ho, ho', ← confidence_timeless, ← confidence_timeless o'.runs, hruns]

variable {browsers : List Text} {n : Nat}

/-- Sessions in whatever order of turns keep to their courses, and none of them is late. -/
theorem crewFrom_reaches {c : Clock} {crew : List (Script (Except SessionError Run) × τ)}
    (hreaches : Relation.ReflTransGen (TurnAt c g.answer)
      (crewFrom g s seq prompt n browsers) crew) :
    List.Forall₂ (Toward g.answer SameOutcome) (aloneFrom g s seq prompt n browsers) crew ∧
      ∀ x ∈ crew, EndsIn c (· ≠ .error .duration) x.1 := by
  induction hreaches with
  | refl =>
    refine ⟨crewFrom_toward g s seq prompt n browsers, fun x hx => ?_⟩
    obtain ⟨p, -, rfl⟩ := List.mem_map.mp hx
    exact run_endsIn c s seq prompt p.1
  | tail _ hturn ih => exact ⟨hturn.turn.toward ih.1, hturn.endsIn ih.2⟩

/-- Sessions that have all ended have the results they have alone, if each has one. -/
theorem eachAlone_of_done {c : Clock} {crew : List (Script (Except SessionError Run) × τ)}
    (hreaches : Relation.ReflTransGen (TurnAt c g.answer) (crewFrom g s seq prompt n browsers) crew)
    (halone : ∀ x ∈ aloneFrom g s seq prompt n browsers, ∃ r, x = .ok r)
    (hdone : ∀ x ∈ crew, ∃ a, x.1 = .done a) :
    ∃ runs, crew.map Prod.fst = runs.map (fun r => .done (.ok r)) ∧
      EachAlone g s seq prompt n browsers runs := by
  obtain ⟨hcourse, hpunctual⟩ := crewFrom_reaches g hreaches
  have hok : ∀ x ∈ crew, ∃ r, Script.done (.ok r) = x.1 := by
    intro x hx
    obtain ⟨a, ha⟩ := hdone x hx
    obtain ⟨v, hv, htoward⟩ := exists_of_forall₂ hcourse hx
    obtain ⟨r, rfl⟩ := halone v hv
    obtain ⟨script, t⟩ := x
    obtain rfl : script = .done a := ha
    cases a with
    | ok r' => exact ⟨r', rfl⟩
    | error e =>
      -- a session that ends otherwise than alone is late
      rcases htoward.of_done with hlate | hlate | hsame
      · exact absurd hlate (hpunctual _ hx)
      · cases hlate
      · cases hsame
  obtain ⟨runs, hruns⟩ :
      crew.map Prod.fst ∈ Set.range (List.map fun r : Run => Script.done (.ok r)) := by
    rw [Set.range_list_map]
    exact List.forall_mem_map.mpr hok
  have hended : Gathers g.answer crew (.ok runs) := .results hruns.symm
  rcases hended.ends hcourse with ⟨runs', hsame, hall⟩ | ⟨e, he, -⟩
  · cases hsame
    exact ⟨runs, hruns.symm, .of_forall₂ g s seq prompt hall⟩
  · cases he

variable {requested : List Text}

/-- All browsers have their results when each session fails by its browser at most. -/
theorem runAll_eachAlone {c : Clock} (hclock : ∀ st, c.shows (g.host.time st)) {st : σ}
    (halone : ∀ x ∈ aloneFrom g s seq prompt (g.opened st) (selectBrowsers requested).value,
      ∃ r, x = .ok r) (parallel : Bool) :
    ∃ o, ((runAll s seq prompt requested parallel).play g.host st).value.1 = .ok o ∧
      EachAlone g s seq prompt (g.opened st) (selectBrowsers requested).value o.runs := by
  cases houtcome : ((runAll s seq prompt requested parallel).play g.host st).value.1 with
  | ok o => exact ⟨o, rfl, runAll_ok g houtcome⟩
  | error e =>
    obtain ⟨i, b, hb, herror, -⟩ := (runAll_error_iff g fun h => c.not_late hclock h.1).mp houtcome
    obtain ⟨r, hr⟩ := halone _ ((mem_aloneFrom_iff g s seq prompt).mpr ⟨i, b, hb, herror⟩)
    cases hr

/-- **Side by side, sessions come to what they come to one after the other.** On pages that know
nothing of each other, with sessions that fail by their browsers at most and a clock whose times are
near each other: one after the other, there is a result for each browser, in order. Side by side
they take turns in some order; whichever it is, it does not go on for ever, and as long as not all
sessions have ended one of them has a turn. When all have ended, their results in the order of the
browsers are the same, aside from the time, and so is the confidence. The run that is told to go
side by side comes to the same too. -/
theorem sideBySide_agrees (g : Pages σ τ) (c : Clock) (hclock : ∀ st, c.shows (g.host.time st))
    (s : Setting) (seq : Sequence) (prompt : Prompt) (requested : List Text) (st : σ)
    (hfaults : ∀ (i : Nat) (b : Text) (f : Fault), (selectBrowsers requested).value[i]? = some b →
      Fails g.alone s seq b (g.unopened (g.opened st + i)) f → f.isBrowser = true) :
    ∃ o, ((runAll s seq prompt requested false).play g.host st).value.1 = .ok o ∧
      o.runs.map Run.browser = (selectBrowsers requested).value ∧
      (∃ o', ((runAll s seq prompt requested true).play g.host st).value.1 = .ok o' ∧ o.Agrees o') ∧
      Acc (fun later now => TurnAt c g.answer now later)
        (crewFrom g s seq prompt (g.opened st) (selectBrowsers requested).value) ∧
      ∀ crew, Relation.ReflTransGen (TurnAt c g.answer)
          (crewFrom g s seq prompt (g.opened st) (selectBrowsers requested).value) crew →
        (∃ later, TurnAt c g.answer crew later) ∨
        ∃ runs, crew.map Prod.fst = runs.map (fun r => .done (.ok r)) ∧
          o.Agrees ⟨runs, confidence runs⟩ := by
  -- sessions that fail by their browsers alone all end with a result
  have halone : ∀ x ∈ aloneFrom g s seq prompt (g.opened st) (selectBrowsers requested).value,
      ∃ r, x = .ok r := by
    intro x hx
    obtain ⟨i, b, hb, rfl⟩ := (mem_aloneFrom_iff g s seq prompt).mp hx
    exact (aloneOn_ok_iff g).mpr fun f => hfaults i b f hb
  obtain ⟨o, ho, hall⟩ := runAll_eachAlone g hclock halone false
  obtain ⟨o', ho', hall'⟩ := runAll_eachAlone g hclock halone true
  refine ⟨o, ho, hall.browser,
    ⟨o', ho', hall.agrees g hall' (runAll_confidence ho) (runAll_confidence ho')⟩, acc_turnAt _,
      fun crew hreaches => ?_⟩
  rcases done_or_turnAt (hclock st) crew with hdone | hturn
  · obtain ⟨runs, hruns, hended⟩ := eachAlone_of_done g hreaches halone hdone
    have hsame : o.Agrees ⟨runs, confidence runs⟩ := hall.agrees g hended (runAll_confidence ho) rfl
    exact .inr ⟨runs, hruns, hsame⟩
  · exact .inl hturn

end Agreement

/-! ### Three browsers, one of which is refused -/

/-- A clock that begins anew each day. -/
def daily : Clock where
  shows t := 0 ≤ t ∧ t < 86400000
  near t t' ht ht' := by
    have hday : 86400000 ≤ endless := by decide +kernel
    omega

/-- Pages with such a clock, of which the second cannot be opened for a reason of its browser. -/
def dailyPages : Pages (Nat × Stage) Stage :=
  .sideBySide (fun st => st.2.clock % 86400000) Stage.answer fun i =>
    if i = 1 then { sessions := [("firefox", { launchFault := some (.browser "no display") })] }
      else {}

/-- A single pause. -/
def pause : Sequence := ⟨[Action.wait 5 "Wait"]⟩

/-- In every order of turns the refused session ends as one without success, and the others
succeed. -/
theorem sideBySide_agrees_refused :
    (∀ st, daily.shows (dailyPages.host.time st)) ∧
    (∀ (i : Nat) (b : Text) (f : Fault), (selectBrowsers threeBrowsers).value[i]? = some b →
      Fails dailyPages.alone pictured pause b (dailyPages.unopened (0 + i)) f →
      f.isBrowser = true) ∧
    ∃ o, ((runAll pictured pause {} threeBrowsers false).play dailyPages.host (0, {})).value.1 =
      .ok o ∧
      o.runs.map (·.success) = [true, false, true] ∧
      ∀ crew, Relation.ReflTransGen (TurnAt daily dailyPages.answer)
          (crewFrom dailyPages pictured pause {} 0 threeBrowsers) crew →
        (∃ later, TurnAt daily dailyPages.answer crew later) ∨
        ∃ runs, crew.map Prod.fst = runs.map (fun r => .done (.ok r)) ∧
          o.Agrees ⟨runs, confidence runs⟩ := by
  have hclock : ∀ st, daily.shows (dailyPages.host.time st) := fun st =>
    ⟨Int.emod_nonneg _ (by decide), Int.emod_lt_of_pos _ (by decide)⟩
  have hfaults : ∀ (i : Nat) (b : Text) (f : Fault),
      (selectBrowsers threeBrowsers).value[i]? = some b →
      Fails dailyPages.alone pictured pause b (dailyPages.unopened (0 + i)) f →
      f.isBrowser = true := by
    intro i b f hb
    have halone : ∃ r, aloneOn dailyPages pictured pause {} (0 + i) b = .ok r := by
      match i with
      | 0 => cases hb; exact ⟨_, rfl⟩
      | 1 => cases hb; exact ⟨_, rfl⟩
      | 2 => cases hb; exact ⟨_, rfl⟩
      | i + 3 => cases hb
    exact (aloneOn_ok_iff dailyPages).mp halone f
  obtain ⟨o, ho, -, -, -, hall⟩ :=
    sideBySide_agrees dailyPages daily hclock pictured pause {} threeBrowsers (0, {}) hfaults
  refine ⟨hclock, hfaults, o, ho, ?_, hall⟩
  have hsuccess :
    (((runAll pictured pause {} threeBrowsers false).play dailyPages.host (0, {})).value.1.map
      fun o => o.runs.map (·.success)) = .ok [true, false, true] := rfl
  rw [ho] at hsuccess
  exact Except.ok.inj hsuccess

end Session

end PlainSteps
