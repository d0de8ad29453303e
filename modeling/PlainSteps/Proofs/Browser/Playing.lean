import PlainSteps.Browser.Session
import PlainSteps.Proofs.Trying

/-! # How a script plays

`x.Plays h s a s' calls` says that the script `x`, played on the host `h` from the state `s`, ends
in the value `a` and the state `s'` after making the requests `calls`, in this order. Nothing is
assumed of the host, so what is proved of every way to play holds for every behaviour of a browser.
A script made of two parts plays exactly as the first part followed by the second, its requests
split between them; telling a line and reading the clock make no request and leave the host as it
is.
-/

namespace PlainSteps

variable {σ α β ε : Type} {h : Host σ} {s s' : σ} {calls : List Request}

namespace Script

/-- The requests a script makes on a host, in order. -/
def requests (h : Host σ) : Script α → σ → List Request
  | done _, _ => []
  | say _ next, s => requests h next s
  | clock next, s => requests h (next (h.time s)) s
  | ask q next, s => q :: requests h (next (h.answer q s).1) (h.answer q s).2

/-- A script plays on a host to a value and a state, with the requests made on the way. -/
structure Plays (h : Host σ) (x : Script α) (s : σ) (a : α) (s' : σ) (calls : List Request) :
    Prop where
  ends : (x.play h s).value = (a, s')
  asks : x.requests h s = calls

theorem plays_self (h : Host σ) (x : Script α) (s : σ) :
    x.Plays h s (x.play h s).value.1 (x.play h s).value.2 (x.requests h s) := ⟨rfl, rfl⟩

/-- A script plays in one way only. -/
theorem Plays.unique {x : Script α} {a b : α} {s₁ s₂ : σ} {calls₁ calls₂ : List Request}
    (ha : x.Plays h s a s₁ calls₁) (hb : x.Plays h s b s₂ calls₂) :
    a = b ∧ s₁ = s₂ ∧ calls₁ = calls₂ := by
  obtain ⟨hv, hs⟩ := Prod.mk.inj (ha.ends.symm.trans hb.ends)
  exact ⟨hv, hs, ha.asks.symm.trans hb.asks⟩

theorem value_play_bind (h : Host σ) (x : Script α) (f : α → Script β) (s : σ) :
    ((x.bind f).play h s).value =
      ((f (x.play h s).value.1).play h (x.play h s).value.2).value := by
  induction x generalizing s with
  | done a => rfl
  | say line next ih => exact ih s
  | clock next ih => exact ih (h.time s) s
  | ask q next ih => exact ih (h.answer q s).1 (h.answer q s).2

theorem value_play_seq (h : Host σ) (x : Script α) (f : α → Script β) (s : σ) :
    ((x >>= f).play h s).value = ((f (x.play h s).value.1).play h (x.play h s).value.2).value :=
  value_play_bind h x f s

theorem requests_bind (h : Host σ) (x : Script α) (f : α → Script β) (s : σ) :
    (x.bind f).requests h s =
      x.requests h s ++ (f (x.play h s).value.1).requests h (x.play h s).value.2 := by
  induction x generalizing s with
  | done a => rfl
  | say line next ih => exact ih s
  | clock next ih => exact ih (h.time s) s
  | ask q next ih => exact congrArg (q :: ·) (ih (h.answer q s).1 (h.answer q s).2)

/-- **The two parts of a script play one after the other.** -/
theorem plays_bind_iff {x : Script α} {f : α → Script β} {b : β} :
    (x >>= f).Plays h s b s' calls ↔
      ∃ a s₁ before after, x.Plays h s a s₁ before ∧ (f a).Plays h s₁ b s' after ∧
        calls = before ++ after := by
  constructor
  · rintro ⟨hend, hask⟩
    exact ⟨_, _, _, _, plays_self h x s, ⟨(value_play_bind h x f s).symm.trans hend, rfl⟩,
      hask.symm.trans (requests_bind h x f s)⟩
  · rintro ⟨a, s₁, before, after, ⟨hx, hbefore⟩, ⟨hf, hafter⟩, rfl⟩
    refine ⟨(value_play_bind h x f s).trans ?_, (requests_bind h x f s).trans ?_⟩
    · rw [hx]; exact hf
    · rw [hx, hbefore, hafter]

theorem plays_pure_iff {a b : α} :
    (pure a : Script α).Plays h s b s' calls ↔ b = a ∧ s' = s ∧ calls = [] := by
  constructor
  · rintro ⟨hend, hask⟩
    cases hend
    exact ⟨rfl, rfl, hask.symm⟩
  · rintro ⟨rfl, rfl, rfl⟩
    exact plays_self h _ s'

theorem plays_map_iff {x : Script α} {f : α → β} {b : β} :
    (f <$> x).Plays h s b s' calls ↔ ∃ a, x.Plays h s a s' calls ∧ b = f a := by
  rw [map_eq_pure_bind, plays_bind_iff]
  constructor
  · rintro ⟨a, s₁, before, after, hx, hpure, rfl⟩
    obtain ⟨rfl, rfl, rfl⟩ := plays_pure_iff.mp hpure
    exact ⟨a, by rwa [List.append_nil], rfl⟩
  · rintro ⟨a, hx, rfl⟩
    exact ⟨a, s', calls, [], hx, plays_pure_iff.mpr ⟨rfl, rfl, rfl⟩, (List.append_nil calls).symm⟩

theorem plays_tell_iff {line : Text} {u : Unit} :
    (tell line).Plays h s u s' calls ↔ s' = s ∧ calls = [] := by
  constructor
  · rintro ⟨hend, hask⟩
    cases hend
    exact ⟨rfl, hask.symm⟩
  · rintro ⟨rfl, rfl⟩
    exact plays_self h _ s'

/-- Telling a line changes nothing for what follows. -/
theorem plays_tell_bind_iff {line : Text} {f : Unit → Script β} {b : β} :
    (tell line >>= f).Plays h s b s' calls ↔ (f ()).Plays h s b s' calls :=
  ⟨fun ⟨hend, hask⟩ => ⟨hend, hask⟩, fun ⟨hend, hask⟩ => ⟨hend, hask⟩⟩

/-- Reading the clock gives the time and changes nothing. -/
theorem plays_now_bind_iff {f : Int → Script β} {b : β} :
    (now >>= f).Plays h s b s' calls ↔ (f (h.time s)).Plays h s b s' calls :=
  ⟨fun ⟨hend, hask⟩ => ⟨hend, hask⟩, fun ⟨hend, hask⟩ => ⟨hend, hask⟩⟩

theorem plays_request_iff {q : Request} {r : Except Fault q.Reply} :
    (request q).Plays h s r s' calls ↔ h.answer q s = (r, s') ∧ calls = [q] :=
  ⟨fun ⟨hend, hask⟩ => ⟨hend, hask.symm⟩, fun ⟨hend, hask⟩ => ⟨hend, hask.symm⟩⟩

/-- Lines told in front of a script change nothing for it. -/
theorem plays_telling_iff {lines : List Text} {x : Script α} {a : α} :
    (Session.telling lines x).Plays h s a s' calls ↔ x.Plays h s a s' calls := by
  induction lines with
  | nil => rfl
  | cons line rest ih =>
    exact ⟨fun ⟨hend, hask⟩ => ih.mp ⟨hend, hask⟩, fun hx => ⟨(ih.mpr hx).ends, (ih.mpr hx).asks⟩⟩

/-! ### Scripts that may fail -/

theorem plays_run_pure_iff {a : α} {r : Except ε α} :
    (ExceptT.run (pure a : ExceptT ε Script α)).Plays h s r s' calls ↔
      r = .ok a ∧ s' = s ∧ calls = [] :=
  plays_pure_iff

theorem plays_run_lift_iff {x : Script α} {r : Except ε α} :
    (ExceptT.run (ExceptT.lift x : ExceptT ε Script α)).Plays h s r s' calls ↔
      ∃ a, x.Plays h s a s' calls ∧ r = .ok a := plays_map_iff

/-- Of two parts that may fail, the second plays only if the first does not fail. -/
theorem plays_run_bind_iff {x : ExceptT ε Script α} {f : α → ExceptT ε Script β} {r : Except ε β} :
    (ExceptT.run (x >>= f)).Plays h s r s' calls ↔
      (∃ e, (ExceptT.run x).Plays h s (.error e) s' calls ∧ r = .error e) ∨
      ∃ a s₁ before after, (ExceptT.run x).Plays h s (.ok a) s₁ before ∧
        (ExceptT.run (f a)).Plays h s₁ r s' after ∧ calls = before ++ after := by
  show (ExceptT.run x >>= ExceptT.bindCont f).Plays h s r s' calls ↔ _
  rw [plays_bind_iff]
  constructor
  · rintro ⟨a, s₁, before, after, hx, hcont, rfl⟩
    cases a with
    | error e =>
      obtain ⟨rfl, rfl, rfl⟩ := plays_pure_iff.mp hcont
      exact .inl ⟨e, by rwa [List.append_nil], rfl⟩
    | ok a => exact .inr ⟨a, s₁, before, after, hx, hcont, rfl⟩
  · rintro (⟨e, hx, rfl⟩ | ⟨a, s₁, before, after, hx, hf, rfl⟩)
    · exact ⟨.error e, s', calls, [], hx, plays_pure_iff.mpr ⟨rfl, rfl, rfl⟩,
        (List.append_nil calls).symm⟩
    · exact ⟨.ok a, s₁, before, after, hx, hf, rfl⟩

/-- Two parts have a value only if both have one. -/
theorem plays_run_bind_ok_iff {x : ExceptT ε Script α} {f : α → ExceptT ε Script β} {b : β} :
    (ExceptT.run (x >>= f)).Plays h s (.ok b) s' calls ↔
      ∃ a s₁ before after, (ExceptT.run x).Plays h s (.ok a) s₁ before ∧
        (ExceptT.run (f a)).Plays h s₁ (.ok b) s' after ∧ calls = before ++ after := by
  rw [plays_run_bind_iff]
  refine or_iff_right ?_
  rintro ⟨e, -, hb⟩
  cases hb

/-- A value that is handed on changed. -/
theorem plays_map_ok_iff {x : Script (Except ε α)} {f : α → β} {b : β} :
    (do let r ← x; return r.map f : Script (Except ε β)).Plays h s (.ok b) s' calls ↔
      ∃ a, x.Plays h s (.ok a) s' calls ∧ f a = b := by
  rw [plays_bind_iff]
  constructor
  · rintro ⟨r, s₁, before, after, hx, hlast, rfl⟩
    obtain ⟨hb, rfl, rfl⟩ := plays_pure_iff.mp hlast
    obtain ⟨a, rfl, rfl⟩ := map_eq_ok_iff.mp hb.symm
    exact ⟨a, by rwa [List.append_nil], rfl⟩
  · rintro ⟨a, hx, rfl⟩
    exact ⟨.ok a, s', calls, [], hx, plays_pure_iff.mpr ⟨rfl, rfl, rfl⟩,
      (List.append_nil calls).symm⟩

/-- A script that may fail has a value just when it does not fail. -/
theorem plays_ok_iff_not_error {x : ExceptT ε Script α} :
    (∃ a s' calls, (ExceptT.run x).Plays h s (.ok a) s' calls) ↔
      ¬ ∃ e s' calls, (ExceptT.run x).Plays h s (.error e) s' calls := by
  constructor
  · rintro ⟨a, s₁, calls₁, hok⟩ ⟨e, s₂, calls₂, herror⟩
    cases (hok.unique herror).1
  · intro hnone
    have hplay := plays_self h (ExceptT.run x) s
    cases hvalue : ((ExceptT.run x).play h s).value.1 with
    | ok a => exact ⟨a, _, _, hvalue ▸ hplay⟩
    | error e => exact absurd ⟨e, _, _, hvalue ▸ hplay⟩ hnone

/-- A first part that cannot fail always hands on its value. -/
theorem run_lift_bind (x : Script α) (f : α → ExceptT ε Script β) :
    ExceptT.run (ExceptT.lift x >>= f) = x >>= fun a => ExceptT.run (f a) := by
  show (Except.ok <$> x : Script (Except ε α)) >>= ExceptT.bindCont f = _
  rw [map_eq_pure_bind, bind_assoc]
  rfl

end Script

end PlainSteps
