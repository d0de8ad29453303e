import PlainSteps.Proofs.Browser.Verdict

/-! # What the clock cannot change

Two scripts are alike when they make the same requests and end in related values, whatever either of
them reads on its clock and tells on the way. A script that is alike to itself up to a relation
hands the time on only where that relation does not look. Being alike is put together like the
scripts themselves, one rule for each way to build one; played on two hosts that answer alike, such
scripts end alike.
-/

namespace PlainSteps.Script

variable {α β γ δ ε : Type}

/-- Scripts that make the same requests, each of an allowed kind, and end in related values,
whatever they read on the clock and tell. -/
inductive Alike (P : Request → Prop) (R : α → β → Prop) : Script α → Script β → Prop where
  | done {a : α} {b : β} (related : R a b) : Alike P R (.done a) (.done b)
  | sayLeft {x : Script α} {y : Script β} (line : Text) (rest : Alike P R x y) :
      Alike P R (.say line x) y
  | sayRight {x : Script α} {y : Script β} (line : Text) (rest : Alike P R x y) :
      Alike P R x (.say line y)
  | clock {f : Int → Script α} {g : Int → Script β} (rest : ∀ t t', Alike P R (f t) (g t')) :
      Alike P R (.clock f) (.clock g)
  | ask {q : Request} {f : Except Fault q.Reply → Script α} {g : Except Fault q.Reply → Script β}
      (allowed : P q) (rest : ∀ r, Alike P R (f r) (g r)) : Alike P R (.ask q f) (.ask q g)

/-- A script that neither reads the clock nor makes a request of another kind. -/
def Steady (P : Request → Prop) (x : Script α) : Prop := Alike P Eq x x

section Rules

variable {P : Request → Prop} {R : α → β → Prop} {S : γ → δ → Prop}

theorem Alike.bind {x : Script α} {y : Script β} {f : α → Script γ} {g : β → Script δ}
    (hxy : Alike P R x y) (hfg : ∀ a b, R a b → Alike P S (f a) (g b)) :
    Alike P S (x >>= f) (y >>= g) := by
  induction hxy with
  | done related => exact hfg _ _ related
  | sayLeft line _ ih => exact .sayLeft line ih
  | sayRight line _ ih => exact .sayRight line ih
  | clock _ ih => exact .clock ih
  | ask allowed _ ih => exact .ask allowed ih

theorem Alike.mono {P' : Request → Prop} (hP : ∀ q, P q → P' q) {x : Script α} {y : Script β}
    (hxy : Alike P R x y) : Alike P' R x y := by
  induction hxy with
  | done related => exact .done related
  | sayLeft line _ ih => exact .sayLeft line ih
  | sayRight line _ ih => exact .sayRight line ih
  | clock _ ih => exact .clock ih
  | ask allowed _ ih => exact .ask (hP _ allowed) ih

theorem alike_pure {a : α} {b : β} (h : R a b) : Alike P R (pure a) (pure b) := .done h

theorem Alike.tell_bind_left {line : Text} {f : Unit → Script α} {y : Script β}
    (h : Alike P R (f ()) y) :
    Alike P R (tell line >>= f) y := .sayLeft line h

theorem Alike.tell_bind_right {line : Text} {x : Script α} {g : Unit → Script β}
    (h : Alike P R x (g ())) :
    Alike P R x (tell line >>= g) := .sayRight line h

theorem alike_tell_bind {line line' : Text} {f : Unit → Script α} {g : Unit → Script β}
    (h : Alike P R (f ()) (g ())) : Alike P R (tell line >>= f) (tell line' >>= g) :=
  h.tell_bind_right.tell_bind_left

theorem alike_now_bind {f : Int → Script α} {g : Int → Script β}
    (h : ∀ t t', Alike P R (f t) (g t')) :
    Alike P R (now >>= f) (now >>= g) := .clock h

theorem steady_pure (a : α) : Steady P (pure a) := .done rfl

theorem steady_tell (line : Text) : Steady P (tell line) :=
  .sayLeft line (.sayRight line (.done rfl))

theorem steady_request {q : Request} (hq : P q) : Steady P (request q) := .ask hq fun _ => .done rfl

theorem Steady.bind_alike {x : Script α} {f : α → Script γ} {g : α → Script δ} (hx : Steady P x)
    (hfg : ∀ a, Alike P S (f a) (g a)) : Alike P S (x >>= f) (x >>= g) :=
  Alike.bind hx fun a _ h => h ▸ hfg a

theorem Steady.bind {x : Script α} {f : α → Script γ} (hx : Steady P x) (hf : ∀ a, Steady P (f a)) :
    Steady P (x >>= f) := hx.bind_alike hf

/-! ### Scripts that may fail -/

/-- The same error on both sides, or related values. -/
inductive OfBoth (R : α → β → Prop) : Except ε α → Except ε β → Prop where
  | ok {a : α} {b : β} (related : R a b) : OfBoth R (.ok a) (.ok b)
  | error (e : ε) : OfBoth R (.error e) (.error e)

theorem OfBoth.of_map_eq {x : Except ε α} {y : Except ε β} {f : α → γ} {g : β → γ}
    (h : x.map f = y.map g) :
    OfBoth (fun a b => f a = g b) x y := by
  cases x with
  | error e =>
    cases y with
    | error e' =>
      cases h
      exact .error e
    | ok b => cases h
  | ok a =>
    cases y with
    | error e' => cases h
    | ok b => exact .ok (Except.ok.inj h)

theorem Alike.run_bind {x : ExceptT ε Script α} {y : ExceptT ε Script β}
    {f : α → ExceptT ε Script γ} {g : β → ExceptT ε Script δ} (hxy : Alike P (OfBoth R) x.run y.run)
    (hfg : ∀ a b, R a b → Alike P (OfBoth S) (f a).run (g b).run) :
    Alike P (OfBoth S) (x >>= f).run (y >>= g).run := by
  refine Alike.bind (R := OfBoth R) hxy fun a b hab => ?_
  cases hab with
  | ok related => exact hfg _ _ related
  | error e => exact .done (.error e)

theorem Steady.run_bind_alike {x : ExceptT ε Script α} {f : α → ExceptT ε Script γ}
    {g : α → ExceptT ε Script δ} (hx : Steady P x.run)
    (hfg : ∀ a, Alike P (OfBoth S) (f a).run (g a).run) :
    Alike P (OfBoth S) (x >>= f).run (x >>= g).run := by
  refine Steady.bind_alike hx fun a => ?_
  cases a with
  | ok a => exact hfg a
  | error e => exact .done (.error e)

theorem Steady.run_bind {x : ExceptT ε Script α} {f : α → ExceptT ε Script γ} (hx : Steady P x.run)
    (hf : ∀ a, Steady P (f a).run) : Steady P (x >>= f).run := by
  refine Steady.bind hx fun a => ?_
  cases a with
  | ok a => exact hf a
  | error e => exact .done rfl

theorem steady_run_lift {x : Script α} (hx : Steady P x) :
    Steady P (ExceptT.run (ExceptT.lift x : ExceptT ε Script α)) := by
  show Steady P (Except.ok <$> x : Script (Except ε α))
  rw [map_eq_pure_bind]
  exact hx.bind fun a => steady_pure _

section Lifted

variable {U : Except ε γ → Except ε δ → Prop}

theorem Alike.run_lift_bind {x : Script α} {y : Script β} {f : α → ExceptT ε Script γ}
    {g : β → ExceptT ε Script δ} (hxy : Alike P R x y)
    (hfg : ∀ a b, R a b → Alike P U (f a).run (g b).run) :
    Alike P U (ExceptT.lift x >>= f).run (ExceptT.lift y >>= g).run := by
  rw [Script.run_lift_bind, Script.run_lift_bind]
  exact hxy.bind hfg

theorem Steady.run_lift_bind_alike {x : Script α} {f : α → ExceptT ε Script γ}
    {g : α → ExceptT ε Script δ} (hx : Steady P x) (hfg : ∀ a, Alike P U (f a).run (g a).run) :
    Alike P U (ExceptT.lift x >>= f).run (ExceptT.lift x >>= g).run :=
  Alike.run_lift_bind hx fun a _ h => h ▸ hfg a

theorem alike_run_tell_bind {line line' : Text} {f : Unit → ExceptT ε Script γ}
    {g : Unit → ExceptT ε Script δ} (h : Alike P U (f ()).run (g ()).run) :
    Alike P U (ExceptT.lift (tell line) >>= f).run (ExceptT.lift (tell line') >>= g).run := by
  rw [run_lift_bind, run_lift_bind]
  exact alike_tell_bind h

theorem alike_run_now_bind {f : Int → ExceptT ε Script γ} {g : Int → ExceptT ε Script δ}
    (h : ∀ t t', Alike P U (f t).run (g t').run) :
    Alike P U (ExceptT.lift now >>= f).run (ExceptT.lift now >>= g).run := by
  rw [run_lift_bind, run_lift_bind]
  exact alike_now_bind h

end Lifted

end Rules

/-! ### Playing -/

/-- **Alike scripts end alike** on hosts that answer alike. -/
theorem Alike.play {σ σ' : Type} {h : Host σ} {h' : Host σ'} {P : Request → Prop} {R : α → β → Prop}
    {Q : σ → σ' → Prop}
    (hanswer : ∀ q, P q → ∀ s s', Q s s' →
      (h.answer q s).1 = (h'.answer q s').1 ∧ Q (h.answer q s).2 (h'.answer q s').2)
    {x : Script α} {y : Script β} (hxy : Alike P R x y) : ∀ {s : σ} {s' : σ'}, Q s s' →
      R (x.play h s).value.1 (y.play h' s').value.1 ∧
      Q (x.play h s).value.2 (y.play h' s').value.2 := by
  induction hxy with
  | done related => exact fun hs => ⟨related, hs⟩
  | sayLeft _ _ ih => exact ih
  | sayRight _ _ ih => exact ih
  | clock _ ih => exact fun hs => ih _ _ hs
  | ask allowed _ ih =>
    rename_i q f g _
    intro s s' hs
    obtain ⟨hreply, hnext⟩ := hanswer q allowed s s' hs
    have hrest := ih (h.answer q s).1 hnext
    have hg : g (h'.answer q s').1 = g (h.answer q s).1 := by rw [hreply]
    show R ((f (h.answer q s).1).play h _).value.1 ((g (h'.answer q s').1).play h' _).value.1 ∧
      Q ((f (h.answer q s).1).play h _).value.2 ((g (h'.answer q s').1).play h' _).value.2
    rw [hg]
    exact hrest

end PlainSteps.Script

namespace PlainSteps

open Script

/-- Whether a request opens a session. -/
def Request.isLaunch : Request → Bool
  | .launch .. => true
  | _ => false

/-- The requests of a session that is open. -/
def Request.Inside (q : Request) : Prop := q.isLaunch = false

/-- Whether a request writes a text to a file. -/
def Request.isWrite : Request → Bool
  | .writeText .. => true
  | _ => false

/-- What a session that is open asks for: it opens no other one, and the only files it makes are
pictures. -/
def Request.OnPage (q : Request) : Prop := q.isLaunch = false ∧ q.isWrite = false

/-! ### Actions -/

section Actions

variable {config : Application}

theorem Acting.request_steady {q : Request} (hq : q.OnPage) :
    Steady Request.OnPage (Acting.request q).run :=
  Steady.bind (steady_request hq) fun _ => steady_pure _

theorem Acting.tell_steady (line : Text) : Steady Request.OnPage (Acting.tell line).run :=
  steady_run_lift (steady_tell line)

namespace Locator

theorem attempt_steady (element : Text) (s : Strategy) :
    Steady Request.OnPage (attempt config element s).run := by
  unfold attempt
  refine Steady.run_bind (steady_pure _) fun _ => ?_
  split
  all_goals
    refine Steady.run_bind (Acting.request_steady ⟨rfl, rfl⟩) fun _ => ?_
    exact Steady.run_bind (Acting.tell_steady _) fun _ => steady_pure _

theorem tryEach_steady (element : Text) : ∀ (tried : List Text) (strategies : List Strategy),
    Steady Request.OnPage (tryEach config element tried strategies).run
  | _, [] => steady_pure _
  | tried, s :: rest => by
    refine Steady.bind (attempt_steady element s) fun outcome => ?_
    split
    · exact steady_pure _
    · split
      · exact Steady.bind (steady_tell _) fun _ =>
          tryEach_steady element (tried ++ [s.describe]) rest
      · exact steady_pure _

theorem resolve_steady (element : Text) : Steady Request.OnPage (resolve config element).run :=
  tryEach_steady element [] _

end Locator

namespace Execution

open Locator

theorem target_steady (a : Action) : Steady Request.OnPage (target a).run := by
  unfold target
  split
  · exact steady_pure _
  · exact steady_pure _

theorem elementOf_steady (a : Action) : Steady Request.OnPage (elementOf config a).run := by
  refine Steady.run_bind (target_steady a) fun element => ?_
  refine Steady.run_bind (resolve_steady element) fun found => ?_
  cases found with
  | some q => exact steady_pure _
  | none => exact steady_pure _

theorem assertHidden_steady (element : Text) :
    Steady Request.OnPage (assertHidden config element).run := by
  refine Steady.bind (resolve_steady element) fun outcome => ?_
  split
  all_goals exact steady_pure _

theorem assertFound_steady (element condition : Text) :
    Steady Request.OnPage (assertFound config element condition).run := by
  refine Steady.run_bind (resolve_steady element) fun found => ?_
  split
  · refine Steady.run_bind (Acting.request_steady ⟨rfl, rfl⟩) fun text => ?_
    split
    · exact Steady.run_bind (steady_pure _) fun _ => steady_pure _
    · exact steady_pure _
  · exact steady_pure _

/-- What an action does has nothing to do with the time. -/
theorem perform_steady (a : Action) : Steady Request.OnPage (perform config a).run := by
  unfold perform
  cases a.kind with
  | navigate => exact Steady.run_bind (Acting.request_steady ⟨rfl, rfl⟩) fun _ => steady_pure _
  | wait => exact Steady.run_bind (Acting.request_steady ⟨rfl, rfl⟩) fun _ => steady_pure _
  | fill =>
    refine Steady.run_bind (elementOf_steady a) fun q => ?_
    exact Steady.run_bind (Acting.request_steady ⟨rfl, rfl⟩) fun _ => steady_pure _
  | click =>
    refine Steady.run_bind (elementOf_steady a) fun q => ?_
    exact Steady.run_bind (Acting.request_steady ⟨rfl, rfl⟩) fun _ => steady_pure _
  | assert =>
    refine Steady.run_bind (target_steady a) fun element => ?_
    split
    · exact assertHidden_steady element
    · exact assertFound_steady element _

theorem takePicture_steady (directory : Text) (n : Int) (a : Action) :
    Steady Request.OnPage (takePicture directory n a).run := by
  refine Steady.run_bind (steady_request ⟨rfl, rfl⟩) fun _ => ?_
  refine Steady.run_bind (steady_run_lift (steady_request ⟨rfl, rfl⟩)) fun answer => ?_
  split
  · exact steady_run_lift (steady_tell _)
  · split
    · exact steady_run_lift (steady_tell _)
    · exact steady_pure _

end Execution

end Actions

/-! ### Results without their durations -/

/-- The result of an action without the time it took. -/
def StepResult.timeless (r : StepResult) : StepResult := { r with duration := 0 }

/-- The result of a session without the time it took. -/
def Run.timeless (r : Run) : Run :=
  { r with duration := 0, steps := r.steps.map StepResult.timeless }

namespace Execution

variable {s : Setting}

/-- Results that differ in their durations at most. -/
def SameSteps (r r' : List StepResult) : Prop :=
  r.map StepResult.timeless = r'.map StepResult.timeless

theorem execute_alike (a : Action) (n : Int) :
    Alike Request.OnPage (OfBoth fun r r' => r.timeless = r'.timeless) (execute s a n).run
      (execute s a n).run := by
  refine alike_run_now_bind fun start start' =>
    Steady.run_lift_bind_alike (perform_steady a) fun outcome => ?_
  refine alike_run_now_bind fun finish finish' => ?_
  cases outcome with
  | ok details => exact alike_pure (.ok rfl)
  | error e =>
    dsimp only
    split
    · exact Steady.run_bind_alike (takePicture_steady _ n a) fun _ => alike_pure (.ok rfl)
    · exact alike_pure (.ok rfl)

theorem runFrom_alike (total : Nat) : ∀ (n : Int) (actions : List Action),
    Alike Request.OnPage (OfBoth SameSteps) (runFrom s total n actions).run
      (runFrom s total n actions).run
  | _, [] => alike_pure (.ok rfl)
  | n, a :: rest => by
    refine alike_run_tell_bind (Alike.run_bind (execute_alike a n) fun r r' hr => ?_)
    -- the status is what the rest of the run depends on
    have hstatus : r'.status = r.status := (congrArg StepResult.status hr).symm
    rw [hstatus]
    split
    · refine alike_run_tell_bind (alike_pure (.ok ?_))
      rw [SameSteps, List.map_cons, List.map_cons, hr]
    · refine Alike.run_bind (runFrom_alike total (n + 1) rest) fun later later' hlater =>
        alike_pure (.ok ?_)
      rw [SameSteps, List.map_cons, List.map_cons, hr, hlater]

end Execution

namespace Session

variable {s : Setting} {seq : Sequence} {prompt : Prompt} {browser : Text}

/-- What a session does between the launch of its browser and its end. -/
def visit (s : Setting) (seq : Sequence) (browser : Text) :
    ExceptT Fault Script (List StepResult) := do
  request .newPage
  Execution.runSequence (execution s browser) seq

/-- What a session does once its browser is launched, which is closed in any case. -/
def inside (s : Setting) (seq : Sequence) (browser : Text) :
    ExceptT Fault Script (List StepResult) := do
  let outcome ← ExceptT.lift (visit s seq browser).run
  request .close
  ExceptT.mk (pure outcome)

/-- Tells the result of a session, unless the time it took is too long to be told. -/
def settle (browser : Text) (r : Run) : Script (Except SessionError Run) :=
  match seconds? r.duration with
  | none => return .error .duration
  | some seconds => do
    let outcome : Text := if r.success then "✅ Success" else "❌ Failed"
    Script.tell ("   ".toList ++ outcome ++ " on " ++ browser ++ " (" ++ seconds ++ "s)")
    return .ok r

/-- What becomes of a session with the outcome of its steps. -/
def conclude (prompt : Prompt) (browser : Text) (start : Int)
    (outcome : Except Fault (List StepResult)) :
    Script (Except SessionError Run) := do
  match outcome with
  | .error f =>
    if f.isBrowser then
      Script.tell ("   ❌ Execution failed on ".toList ++ browser ++ ": " ++ f.message)
      let finish ← Script.now
      return .ok (broken prompt browser (finish - start) f)
    else return .error (.fault f)
  | .ok steps =>
    let finish ← Script.now
    settle browser (finished prompt browser (finish - start) steps)

theorem steps_eq :
    steps s seq browser = (request (opening s browser) >>= fun _ => inside s seq browser) := rfl

theorem run_eq : run s seq prompt browser = (do
    Script.tell ("\n🌐 [".toList ++ browser ++ "] Processing: " ++ prompt.title)
    let start ← Script.now
    let outcome ← (steps s seq browser).run
    conclude prompt browser start outcome) := rfl

theorem inside_alike :
    Alike Request.OnPage (OfBoth Execution.SameSteps) (inside s seq browser).run
      (inside s seq browser).run := by
  have hvisit : Alike Request.OnPage (OfBoth Execution.SameSteps) (visit s seq browser).run
      (visit s seq browser).run :=
    Steady.run_bind_alike (steady_request ⟨rfl, rfl⟩) fun _ =>
      Execution.runFrom_alike _ 1 seq.actions
  refine Alike.run_lift_bind hvisit fun outcome outcome' h => ?_
  exact Steady.run_bind_alike (steady_request ⟨rfl, rfl⟩) fun _ => alike_pure h

theorem find?_timeless (results : List StepResult) :
    (results.find? (·.status == StepResult.failed)).map StepResult.timeless =
      (results.map StepResult.timeless).find? (·.status == StepResult.failed) := by
  rw [List.find?_map]
  rfl

/-- The verdict on steps does not look at their durations. -/
theorem finished_timeless {duration duration' : Int} {results results' : List StepResult}
    (h : Execution.SameSteps results results') :
    (finished prompt browser duration results).timeless =
      (finished prompt browser duration' results').timeless := by
  have hfailed : (results.find? (·.status == StepResult.failed)).map StepResult.timeless =
      (results'.find? (·.status == StepResult.failed)).map StepResult.timeless := by
    rw [find?_timeless, find?_timeless, h]
  have hsteps : results.map StepResult.timeless = results'.map StepResult.timeless := h
  unfold finished Run.timeless
  dsimp only
  rw [hsteps]
  cases hfind : results.find? (·.status == StepResult.failed) with
  | none =>
    rw [hfind] at hfailed
    rw [Option.map_eq_none_iff.mp hfailed.symm]
  | some f =>
    rw [hfind] at hfailed
    obtain ⟨f', hfind', hsame⟩ := Option.map_eq_some_iff.mp hfailed.symm
    have hstep : f'.step = f.step := (congrArg StepResult.step hsame :)
    have hdescription : f'.description = f.description := (congrArg StepResult.description hsame :)
    have herror : f'.error = f.error := (congrArg StepResult.error hsame :)
    simp only [hfind', Option.map_some, Option.isNone_some, hstep, hdescription, herror]

/-- Outcomes that differ in durations at most, unless one of them is that a duration is too long. -/
def SameOutcome (x y : Except SessionError Run) : Prop :=
  x = .error .duration ∨ y = .error .duration ∨ x.map Run.timeless = y.map Run.timeless

theorem settle_alike {r r' : Run} (h : r.timeless = r'.timeless) :
    Alike Request.OnPage SameOutcome (settle browser r) (settle browser r') := by
  unfold settle
  cases seconds? r.duration with
  | none =>
    cases seconds? r'.duration with
    | none => exact alike_pure (.inl rfl)
    | some seconds' => exact Alike.tell_bind_right (alike_pure (.inl rfl))
  | some seconds =>
    cases seconds? r'.duration with
    | none => exact Alike.tell_bind_left (alike_pure (.inr (.inl rfl)))
    | some seconds' => exact alike_tell_bind (alike_pure (.inr (.inr (congrArg Except.ok h))))

theorem conclude_alike {start start' : Int} {outcome outcome' : Except Fault (List StepResult)}
    (h : OfBoth Execution.SameSteps outcome outcome') :
    Alike Request.OnPage SameOutcome (conclude prompt browser start outcome)
      (conclude prompt browser start' outcome') := by
  cases h with
  | error f =>
    unfold conclude
    dsimp only
    split
    · exact alike_tell_bind (alike_now_bind fun _ _ => alike_pure (.inr (.inr rfl)))
    · exact alike_pure (.inr (.inr rfl))
  | ok hsteps => exact alike_now_bind fun finish finish' => settle_alike (finished_timeless hsteps)

end Session

end PlainSteps
